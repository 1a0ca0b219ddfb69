import DynamicSwap.Collector.Walk
import DynamicSwap.Library.Machine

/-!
# The aliases of a shared object

One ring of shared pointers under `swap_in` through any alias and the GC's
visits through the alias that the object header names.  Every operation stores
the same change to each alias, so the aliases keep agreeing on where the object
is; the dirty bits may differ, and a write-back folds them.
-/

namespace DynamicSwap.SharedRing

open SwapIn (aliasesOf swapIn)

variable {Meta : Type}

/-- A ring of any length, walked once by `traverse` from each of its aliases. -/
structure Ring where
  aliases : List Slot
  traverse : Slot → List Slot
  nodup : aliases.Nodup
  traverse_perm : ∀ slot ∈ aliases, (traverse slot).Perm aliases

/-- `mark` and `swapOut` are visits of the local object at an address; `flag`
changes bits of one alias that do not say where the object is. -/
inductive Action (Meta : Type)
  | swapIn (slot : Slot) (objAddr : ℕ)
  | mark (objAddr : ℕ)
  | swapOut (objAddr : ℕ) (choices : SwapOutChoices)
  | flag (slot : Slot) (word : Meta)

variable (pointer : FarMemPtrMeta Meta) (ring : Ring)
variable (kHeaderSize : ℕ) (notifiers : Notifiers Meta)

/-- Two words of pointers to one object say the same about it. -/
structure Agree (first second : Meta) : Prop where
  isPresent : pointer.isPresent first = pointer.isPresent second
  isEvacuation : pointer.isEvacuation first = pointer.isEvacuation second
  getObjectAddr : pointer.isPresent first = true →
    pointer.getObjectAddr first = pointer.getObjectAddr second
  getDsId : pointer.isPresent first = false →
    pointer.getDsId first = pointer.getDsId second
  getObjectSize : pointer.isPresent first = false →
    pointer.getObjectSize first = pointer.getObjectSize second
  getObjectId : pointer.isPresent first = false →
    pointer.getObjectId first = pointer.getObjectId second

/-- All aliases are shared pointers and agree. -/
structure Coherent (heap : Heap Meta) : Prop where
  shared : ∀ slot ∈ ring.aliases, pointer.isShared (heap.metas slot) = true
  agree : ∀ slot ∈ ring.aliases, ∀ other ∈ ring.aliases,
    Agree pointer (heap.metas slot) (heap.metas other)

/-- The object is the ring's local object at the address: not freed, and its
header names one of the aliases. -/
def Names (heap : Heap Meta) (objAddr : ℕ) (obj : Object) : Prop :=
  obj.freed = false ∧ obj.ptrAddr ∈ ring.aliases ∧
    pointer.isPresent (heap.metas obj.ptrAddr) = true ∧
    pointer.getObjectAddr (heap.metas obj.ptrAddr) = objAddr

instance (heap : Heap Meta) (objAddr : ℕ) (obj : Object) :
    Decidable (Names pointer ring heap objAddr obj) :=
  inferInstanceAs (Decidable (_ ∧ _))

def localObject (heap : Heap Meta) (objAddr : ℕ) : Option Object :=
  (heap.objects objAddr).filter fun obj => Names pointer ring heap objAddr obj

/-- Two words of a local pointer that differ in flags at most. -/
def SameFlags (old new : Meta) : Prop :=
  pointer.isPresent old = true ∧ pointer.isPresent new = true ∧
    pointer.isShared new = pointer.isShared old ∧
    pointer.isEvacuation new = pointer.isEvacuation old ∧
    pointer.getObjectAddr new = pointer.getObjectAddr old

instance (old new : Meta) : Decidable (SameFlags pointer old new) :=
  inferInstanceAs (Decidable (_ ∧ _))

def step (heap : Heap Meta) : Action Meta → Option (Heap Meta)
  | .swapIn slot objAddr =>
      if slot ∈ ring.aliases ∧ objAddr < pointer.addrBound then
        some (swapIn pointer ring.traverse heap slot objAddr)
      else none
  | .mark objAddr =>
      (localObject pointer ring heap objAddr).map
        (Walk.mark pointer ring.traverse heap)
  | .swapOut objAddr choices =>
      if ∀ addr ∈ choices.newLocalObjectAddr, addr < pointer.addrBound then
        (localObject pointer ring heap objAddr).map
          (Walk.writeBack pointer ring.traverse kHeaderSize notifiers choices heap)
      else none
  | .flag slot word =>
      if SameFlags pointer (heap.metas slot) word then some (heap.setMeta slot word)
      else none

def machine : Library.Machine (Heap Meta) (Action Meta) where
  initial := Coherent pointer ring
  step := step pointer ring kHeaderSize notifiers

/-- Evacuation notifiers that leave the pointer in place and its shared bit as
it is. -/
structure KeepsPointers : Prop where
  kept : ∀ dsId notifier, notifiers.evac dsId = some notifier →
    ∀ obj dirty heap, (notifier (SwapOut.writeObjectFn obj dirty) obj heap).2 = false
  isShared : ∀ dsId notifier, notifiers.evac dsId = some notifier →
    ∀ obj dirty heap slot,
      pointer.isShared
          ((notifier (SwapOut.writeObjectFn obj dirty) obj heap).1.metas slot) =
        pointer.isShared (heap.metas slot)

variable {pointer ring kHeaderSize notifiers}

namespace Agree

variable {first second : Meta}

theorem refl (word : Meta) : Agree pointer word word :=
  ⟨rfl, rfl, fun _ => rfl, fun _ => rfl, fun _ => rfl, fun _ => rfl⟩

theorem symm (hagree : Agree pointer first second) : Agree pointer second first where
  isPresent := hagree.isPresent.symm
  isEvacuation := hagree.isEvacuation.symm
  getObjectAddr hpresent := (hagree.getObjectAddr (hagree.isPresent.trans hpresent)).symm
  getDsId habsent := (hagree.getDsId (hagree.isPresent.trans habsent)).symm
  getObjectSize habsent := (hagree.getObjectSize (hagree.isPresent.trans habsent)).symm
  getObjectId habsent := (hagree.getObjectId (hagree.isPresent.trans habsent)).symm

theorem trans {third : Meta} (hfirst : Agree pointer first second)
    (hsecond : Agree pointer second third) : Agree pointer first third where
  isPresent := hfirst.isPresent.trans hsecond.isPresent
  isEvacuation := hfirst.isEvacuation.trans hsecond.isEvacuation
  getObjectAddr hpresent := (hfirst.getObjectAddr hpresent).trans
    (hsecond.getObjectAddr (hfirst.isPresent ▸ hpresent))
  getDsId habsent := (hfirst.getDsId habsent).trans
    (hsecond.getDsId (hfirst.isPresent ▸ habsent))
  getObjectSize habsent := (hfirst.getObjectSize habsent).trans
    (hsecond.getObjectSize (hfirst.isPresent ▸ habsent))
  getObjectId habsent := (hfirst.getObjectId habsent).trans
    (hsecond.getObjectId (hfirst.isPresent ▸ habsent))

/-- Local words agree when address and evacuation bit do. -/
theorem of_present (hfirst : pointer.isPresent first = true)
    (hsecond : pointer.isPresent second = true)
    (haddr : pointer.getObjectAddr first = pointer.getObjectAddr second)
    (hevacuation : pointer.isEvacuation first = pointer.isEvacuation second) :
    Agree pointer first second where
  isPresent := hfirst.trans hsecond.symm
  isEvacuation := hevacuation
  getObjectAddr _ := haddr
  getDsId habsent := absurd (hfirst.symm.trans habsent) (by decide)
  getObjectSize habsent := absurd (hfirst.symm.trans habsent) (by decide)
  getObjectId habsent := absurd (hfirst.symm.trans habsent) (by decide)

end Agree

theorem localObject_eq_some {heap : Heap Meta} {objAddr : ℕ} {obj : Object} :
    localObject pointer ring heap objAddr = some obj ↔
      heap.objects objAddr = some obj ∧ Names pointer ring heap objAddr obj := by
  simp [localObject, Option.filter_eq_some_iff]

namespace Coherent

variable {heap next base : Heap Meta} {slot : Slot} {obj : Object}

theorem congr (hcoherent : Coherent pointer ring heap)
    (hmetas : next.metas = heap.metas) : Coherent pointer ring next := by
  constructor
  · rw [hmetas]
    exact hcoherent.shared
  · rw [hmetas]
    exact hcoherent.agree

theorem aliasesOf_perm (hshared : ∀ slot ∈ ring.aliases,
      pointer.isShared (heap.metas slot) = true) (hslot : slot ∈ ring.aliases) :
    (aliasesOf pointer ring.traverse heap slot).Perm ring.aliases := by
  rw [aliasesOf, if_pos (hshared slot hslot)]
  exact ring.traverse_perm slot hslot

/-- A traversal that leaves agreeing words in shared pointers. -/
theorem of_mapMetas (hshared : ∀ slot ∈ ring.aliases,
      pointer.isShared (heap.metas slot) = true) (hslot : slot ∈ ring.aliases)
    (setter : Meta → Meta)
    (hkept : ∀ member ∈ ring.aliases, pointer.isShared (setter (base.metas member)) = true)
    (hagree : ∀ member ∈ ring.aliases, ∀ other ∈ ring.aliases,
      Agree pointer (setter (base.metas member)) (setter (base.metas other))) :
    Coherent pointer ring
      (base.mapMetas (aliasesOf pointer ring.traverse heap slot) setter) := by
  have hperm := aliasesOf_perm hshared hslot
  have hmetas : ∀ member ∈ ring.aliases,
      (base.mapMetas (aliasesOf pointer ring.traverse heap slot) setter).metas member =
        setter (base.metas member) := fun member hmember =>
    Heap.metas_mapMetas_of_mem base (hperm.nodup_iff.mpr ring.nodup) setter
      (hperm.mem_iff.mpr hmember)
  constructor
  · intro member hmember
    rw [hmetas member hmember]
    exact hkept member hmember
  · intro member hmember other hother
    rw [hmetas member hmember, hmetas other hother]
    exact hagree member hmember other hother

variable (hcoherent : Coherent pointer ring heap)

include hcoherent

theorem isPresent_eq (hslot : slot ∈ ring.aliases)
    (hpresent : pointer.isPresent (heap.metas slot) = true) :
    ∀ member ∈ ring.aliases, pointer.isPresent (heap.metas member) = true := by
  intro member hmember
  rw [← (hcoherent.agree slot hslot member hmember).isPresent]
  exact hpresent

theorem swapIn {objAddr : ℕ} (hslot : slot ∈ ring.aliases)
    (hbound : objAddr < pointer.addrBound) :
    Coherent pointer ring (swapIn pointer ring.traverse heap slot objAddr) := by
  unfold SwapIn.swapIn
  dsimp only
  split
  · exact hcoherent
  · apply congr _ (Heap.metas_atomicIncRefCnt ..)
    apply of_mapMetas hcoherent.shared hslot
    · intro member hmember
      rw [pointer.isShared_setPresent]
      exact hcoherent.shared member hmember
    · intro member _ other _
      apply Agree.of_present
      · exact pointer.isPresent_setPresent ..
      · exact pointer.isPresent_setPresent ..
      · rw [pointer.getObjectAddr_setPresent _ _ hbound,
          pointer.getObjectAddr_setPresent _ _ hbound]
      · rw [pointer.isEvacuation_setPresent, pointer.isEvacuation_setPresent]

theorem mark (hslot : obj.ptrAddr ∈ ring.aliases)
    (hpresent : pointer.isPresent (heap.metas obj.ptrAddr) = true) :
    Coherent pointer ring (Walk.mark pointer ring.traverse heap obj) := by
  have hlive := hcoherent.isPresent_eq hslot hpresent
  apply of_mapMetas hcoherent.shared hslot
  · intro member hmember
    rw [pointer.isShared_setEvacuation _ (hlive member hmember)]
    exact hcoherent.shared member hmember
  · intro member hmember other hother
    have hfirst := hlive member hmember
    have hsecond := hlive other hother
    apply Agree.of_present
    · exact pointer.isPresent_setEvacuation _ hfirst
    · exact pointer.isPresent_setEvacuation _ hsecond
    · rw [pointer.getObjectAddr_setEvacuation _ hfirst,
        pointer.getObjectAddr_setEvacuation _ hsecond]
      exact (hcoherent.agree member hmember other hother).getObjectAddr hfirst
    · rw [pointer.isEvacuation_setEvacuation _ hfirst,
        pointer.isEvacuation_setEvacuation _ hsecond]

theorem hotCopy {addr : ℕ} (hslot : slot ∈ ring.aliases)
    (hpresent : pointer.isPresent (heap.metas slot) = true)
    (hbound : addr < pointer.addrBound) :
    Coherent pointer ring
      (SwapOut.hotCopy pointer ring.traverse notifiers heap slot obj addr) := by
  have hlive := hcoherent.isPresent_eq hslot hpresent
  apply congr _ (Heap.metas_atomicIncRefCnt ..)
  apply of_mapMetas hcoherent.shared hslot
  · intro member hmember
    exact (pointer.isShared_gcCopy _ _ (hlive member hmember)).trans
      (hcoherent.shared member hmember)
  · intro member hmember other hother
    have hfirst := hlive member hmember
    have hsecond := hlive other hother
    apply Agree.of_present
    · exact pointer.isPresent_gcCopy _ _ hfirst
    · exact pointer.isPresent_gcCopy _ _ hsecond
    · exact (pointer.getObjectAddr_gcCopy _ _ hfirst hbound).trans
        (pointer.getObjectAddr_gcCopy _ _ hsecond hbound).symm
    · exact pointer.isEvacuation_gcCopy_congr _ _ _ hfirst hsecond
        (hcoherent.agree member hmember other hother).isEvacuation

omit hcoherent in
theorem gcWbAll (hshared : ∀ slot ∈ ring.aliases,
      pointer.isShared (heap.metas slot) = true) (hslot : slot ∈ ring.aliases) :
    Coherent pointer ring
      (SwapOut.gcWbAll pointer ring.traverse kHeaderSize heap slot obj) := by
  apply of_mapMetas hshared hslot
  · intro member hmember
    rw [pointer.isShared_gcWb]
    exact hshared member hmember
  · intro member hmember other hother
    rw [pointer.gcWb_congr (heap.metas member) (heap.metas other) _ _ _
      ((hshared member hmember).trans (hshared other hother).symm)]
    exact Agree.refl _

theorem writeBack {dirty : Bool} (hnotifiers : KeepsPointers pointer notifiers)
    (hslot : slot ∈ ring.aliases) :
    Coherent pointer ring (SwapOut.writeBack pointer ring.traverse kHeaderSize
      notifiers heap slot obj dirty) := by
  unfold SwapOut.writeBack
  cases hevac : notifiers.evac obj.dsId with
  | none =>
      apply gcWbAll _ hslot
      rw [SwapOut.metas_writeObjectFn]
      exact hcoherent.shared
  | some notifier =>
      have hkept := hnotifiers.kept _ _ hevac obj dirty heap
      have hisShared := hnotifiers.isShared _ _ hevac obj dirty heap
      dsimp only
      generalize notifier (SwapOut.writeObjectFn obj dirty) obj heap = result
        at hkept hisShared
      obtain ⟨after, removed⟩ := result
      subst hkept
      apply gcWbAll _ hslot
      intro member hmember
      rw [hisShared]
      exact hcoherent.shared member hmember

theorem swapOut {choices : SwapOutChoices} (hnotifiers : KeepsPointers pointer notifiers)
    (hslot : slot ∈ ring.aliases)
    (hpresent : pointer.isPresent (heap.metas slot) = true)
    (hbound : ∀ addr ∈ choices.newLocalObjectAddr, addr < pointer.addrBound) :
    Coherent pointer ring (SwapOut.swapOut pointer ring.traverse kHeaderSize
      notifiers choices heap slot obj) := by
  rcases SwapOut.swapOut_cases pointer ring.traverse kHeaderSize notifiers choices
    heap slot obj with hkept | ⟨addr, haddr, hcopied⟩ | hwritten
  · rw [hkept]
    exact hcoherent
  · rw [hcopied]
    exact hcoherent.hotCopy hslot hpresent (hbound addr haddr)
  · rw [hwritten]
    exact hcoherent.writeBack hnotifiers hslot

theorem flag {word : Meta} (hflags : SameFlags pointer (heap.metas slot) word) :
    Coherent pointer ring (heap.setMeta slot word) := by
  obtain ⟨hold, hnew, hshared, hevacuation, haddr⟩ := hflags
  have hself : Agree pointer word (heap.metas slot) :=
    .of_present hnew hold haddr hevacuation
  have hword : ∀ member ∈ ring.aliases,
      pointer.isShared ((heap.setMeta slot word).metas member) = true ∧
        Agree pointer ((heap.setMeta slot word).metas member) (heap.metas member) := by
    intro member hmember
    by_cases heq : member = slot
    · subst member
      rw [Heap.metas_setMeta_self, hshared]
      exact ⟨hcoherent.shared slot hmember, hself⟩
    · rw [Heap.metas_setMeta_of_ne _ _ heq]
      exact ⟨hcoherent.shared member hmember, .refl _⟩
  constructor
  · exact fun member hmember => (hword member hmember).1
  · intro member hmember other hother
    exact (hword member hmember).2.trans ((hcoherent.agree member hmember other hother).trans
      (hword other hother).2.symm)

/-- Each operation on the ring keeps the aliases coherent. -/
theorem step (hnotifiers : KeepsPointers pointer notifiers) {action : Action Meta}
    (hstep : step pointer ring kHeaderSize notifiers heap action = some next) :
    Coherent pointer ring next := by
  cases action with
  | swapIn slot objAddr =>
      simp only [SharedRing.step, Option.ite_none_right_eq_some, Option.some.injEq] at hstep
      obtain ⟨⟨hslot, hbound⟩, rfl⟩ := hstep
      exact hcoherent.swapIn hslot hbound
  | mark objAddr =>
      simp only [SharedRing.step, Option.map_eq_some_iff, localObject_eq_some] at hstep
      obtain ⟨obj, ⟨-, -, hslot, hpresent, -⟩, rfl⟩ := hstep
      exact hcoherent.mark hslot hpresent
  | swapOut objAddr choices =>
      simp only [SharedRing.step, Option.ite_none_right_eq_some, Option.map_eq_some_iff,
        localObject_eq_some] at hstep
      obtain ⟨hbound, obj, ⟨-, -, hslot, hpresent, -⟩, rfl⟩ := hstep
      exact hcoherent.swapOut hnotifiers hslot hpresent hbound
  | flag slot word =>
      simp only [SharedRing.step, Option.ite_none_right_eq_some, Option.some.injEq] at hstep
      obtain ⟨hflags, rfl⟩ := hstep
      exact hcoherent.flag hflags

end Coherent

section WriteBack

variable {heap : Heap Meta} {slot : Slot} {obj : Object} {choices : SwapOutChoices}

/-- The folded dirty bit is that of the ring. -/
theorem dirty_flagsOf_iff (hcoherent : Coherent pointer ring heap)
    (hslot : slot ∈ ring.aliases) :
    (SwapOut.flagsOf pointer ring.traverse choices heap slot).dirty = true ↔
      ∃ member ∈ ring.aliases, pointer.isDirty (heap.metas member) = true := by
  have hperm := Coherent.aliasesOf_perm hcoherent.shared hslot
  rw [SwapOut.dirty_flagsOf, List.any_eq_true]
  simp only [hperm.mem_iff]

/-- A `swap_out` of a local object that leaves it remote is a write-back; without
a notifier it stores the data when some alias is dirty. -/
theorem device_swapOut (hcoherent : Coherent pointer ring heap)
    (hslot : slot ∈ ring.aliases)
    (hpresent : pointer.isPresent (heap.metas slot) = true)
    (hnone : notifiers.evac obj.dsId = none)
    (habsent : pointer.isPresent ((SwapOut.swapOut pointer ring.traverse kHeaderSize
      notifiers choices heap slot obj).metas slot) = false) :
    (SwapOut.swapOut pointer ring.traverse kHeaderSize notifiers choices heap slot
      obj).device =
        if ∃ member ∈ ring.aliases, pointer.isDirty (heap.metas member) = true then
          (heap.writeObject obj.dsId obj.objId obj.data).device
        else heap.device := by
  have hperm := Coherent.aliasesOf_perm hcoherent.shared hslot
  rcases SwapOut.swapOut_cases pointer ring.traverse kHeaderSize notifiers choices
    heap slot obj with hkept | ⟨addr, -, hcopied⟩ | hwritten
  · rw [hkept, hpresent] at habsent
    cases habsent
  · have hword : (SwapOut.hotCopy pointer ring.traverse notifiers heap slot obj
        addr).metas slot = pointer.gcCopy (heap.metas slot) addr :=
      Heap.metas_mapMetas_of_mem _ (hperm.nodup_iff.mpr ring.nodup) _
        (hperm.mem_iff.mpr hslot)
    rw [hcopied, hword, pointer.isPresent_gcCopy _ _ hpresent] at habsent
    cases habsent
  · rw [hwritten, SwapOut.writeBack_of_no_notifier _ _ _ _ _ _ _ _ hnone,
      SwapOut.device_gcWbAll, SwapOut.writeObjectFn, List.take_length]
    simp only [dirty_flagsOf_iff hcoherent hslot]
    split <;> rfl

end WriteBack

/-- In every run the aliases stay coherent, and a `swap_out` that leaves them
remote without a notifier writes to the device exactly when one was dirty. -/
theorem coherent_of_reachable {heap : Heap Meta}
    (hnotifiers : KeepsPointers pointer notifiers)
    (hreachable : (machine pointer ring kHeaderSize notifiers).Reachable heap) :
    Coherent pointer ring heap ∧
      ∀ objAddr obj choices next,
        localObject pointer ring heap objAddr = some obj →
        notifiers.evac obj.dsId = none →
        step pointer ring kHeaderSize notifiers heap (.swapOut objAddr choices) =
          some next →
        pointer.isPresent (next.metas obj.ptrAddr) = false →
          next.device =
            if ∃ slot ∈ ring.aliases, pointer.isDirty (heap.metas slot) = true then
              (heap.writeObject obj.dsId obj.objId obj.data).device
            else heap.device := by
  have hcoherent := hreachable.invariant (Coherent pointer ring) id
    fun hkept _ hstep => hkept.step hnotifiers hstep
  constructor
  · exact hcoherent
  · intro objAddr obj choices next hlocal hnone hstep habsent
    simp only [step, Option.ite_none_right_eq_some, Option.map_eq_some_iff, hlocal,
      Option.some.injEq, exists_eq_left'] at hstep
    obtain ⟨-, rfl⟩ := hstep
    obtain ⟨-, -, hslot, hpresent, -⟩ := localObject_eq_some.mp hlocal
    exact device_swapOut hcoherent hslot hpresent hnone habsent

/-! ## Two aliases -/

def twoAliases : Ring where
  aliases := [8, 16]
  traverse slot := if slot = 8 then [8, 16] else [16, 8]
  nodup := by decide
  traverse_perm := by decide

/-- Data structure 2 writes its objects back itself. -/
def writingNotifiers : Notifiers ℕ where
  copy _ := none
  evac dsId :=
    if dsId = 2 then some fun write obj heap => (write obj.data.length heap, false)
    else none

theorem keepsPointers_writingNotifiers :
    KeepsPointers (FarMemPtrMeta.pointerHpp 16) writingNotifiers where
  kept dsId notifier hnotifier obj dirty heap := by
    rw [writingNotifiers, Option.ite_none_right_eq_some, Option.some.injEq] at hnotifier
    rw [← hnotifier.2]
  isShared dsId notifier hnotifier obj dirty heap slot := by
    rw [writingNotifiers, Option.ite_none_right_eq_some, Option.some.injEq] at hnotifier
    rw [← hnotifier.2, SwapOut.metas_writeObjectFn]

/-- An object of data structure 1 on the device. -/
def remotePair : Heap ℕ where
  metas _ := (FarMemPtrMeta.pointerHpp 16).gcWb (2 ^ 9) 1 26 5
  objects _ := none
  device _ _ := [3, 4]
  refCnt _ := 0

theorem coherent_remotePair :
    Coherent (FarMemPtrMeta.pointerHpp 16) twoAliases remotePair where
  shared := by decide
  agree _ _ _ _ := .refl _

/-- Swapped in through one alias, written through the other, marked. -/
def markedRun : List (Action ℕ) :=
  [.swapIn 16 4096, .flag 8 (2 ^ 9 + 2 ^ 17 * 4112), .mark 4096]

/-- The cache is almost empty, so a hot object is written back too. -/
def writesBack : SwapOutChoices where
  isNt _ := false
  almostEmpty := true
  newLocalObjectAddr := none

/-- `swap_out` of the marked object finds one alias dirty and writes it back. -/
theorem exists_markedRun :
    ∃ heap obj next,
      (machine (FarMemPtrMeta.pointerHpp 16) twoAliases 16 writingNotifiers).run remotePair
        markedRun = some heap ∧
      localObject (FarMemPtrMeta.pointerHpp 16) twoAliases heap 4096 = some obj ∧
      writingNotifiers.evac obj.dsId = none ∧
      step (FarMemPtrMeta.pointerHpp 16) twoAliases 16 writingNotifiers heap
        (.swapOut 4096 writesBack) = some next ∧
      (FarMemPtrMeta.pointerHpp 16).isPresent (next.metas obj.ptrAddr) = false ∧
      (FarMemPtrMeta.pointerHpp 16).isDirty (heap.metas 8) = true :=
  ⟨_, _, _, rfl, rfl, rfl, rfl, by decide, by decide⟩

theorem coherent_of_reachable_markedRun :
    ∃ (heap : Heap ℕ) (obj : Object) (next : Heap ℕ),
      (machine (FarMemPtrMeta.pointerHpp 16) twoAliases 16 writingNotifiers).run remotePair
        markedRun = some heap ∧
      step (FarMemPtrMeta.pointerHpp 16) twoAliases 16 writingNotifiers heap
        (.swapOut 4096 writesBack) = some next ∧
      Coherent (FarMemPtrMeta.pointerHpp 16) twoAliases heap ∧
      next.device = (heap.writeObject obj.dsId obj.objId obj.data).device := by
  obtain ⟨heap, obj, next, hrun, hlocal, hnone, hstep, habsent, hdirty⟩ := exists_markedRun
  obtain ⟨hcoherent, hwrites⟩ := coherent_of_reachable keepsPointers_writingNotifiers
    (.of_run coherent_remotePair hrun)
  refine ⟨heap, obj, next, hrun, hstep, hcoherent, ?_⟩
  rw [hwrites 4096 obj writesBack next hlocal hnone hstep habsent]
  exact if_pos ⟨8, by decide, hdirty⟩

end DynamicSwap.SharedRing
