import DynamicSwap.Collector.Walk

/-!
# Pointers leaving a region

The visits of the GC and the two mutator operations on an object change only the
words of that object's own pointers.  Afterwards these lead elsewhere or nowhere,
so no pointer addresses the object any more and those of other objects stand as
they were.
-/

namespace DynamicSwap.Evacuation

open SwapIn (aliasesOf)

variable {Meta : Type}
variable (pointer : FarMemPtrMeta Meta) (ring : Slot → List Slot)
variable (kHeaderSize : ℕ) (notifiers : Notifiers Meta)

/-- No local pointer holds the address. -/
def Unaddressed (heap : Heap Meta) (addr : ℕ) : Prop :=
  ∀ slot, pointer.isPresent (heap.metas slot) = true →
    pointer.getObjectAddr (heap.metas slot) ≠ addr

/-- The pointer and, if it is shared, its ring are local with this address. -/
def Points (heap : Heap Meta) (addr : ℕ) (ptr : Slot) : Prop :=
  ∀ slot ∈ aliasesOf pointer ring heap ptr,
    pointer.isPresent (heap.metas slot) = true ∧
      pointer.getObjectAddr (heap.metas slot) = addr

instance (heap : Heap Meta) (addr : ℕ) (ptr : Slot) :
    Decidable (Points pointer ring heap addr ptr) :=
  inferInstanceAs (Decidable (∀ slot ∈ aliasesOf pointer ring heap ptr,
    pointer.isPresent (heap.metas slot) = true ∧
      pointer.getObjectAddr (heap.metas slot) = addr))

/-- The object is the one that the pointers its header names address. -/
structure Owned (heap : Heap Meta) (addr : ℕ) (obj : Object) : Prop where
  nodup : (aliasesOf pointer ring heap obj.ptrAddr).Nodup
  named : obj.ptrAddr ∈ aliasesOf pointer ring heap obj.ptrAddr
  points : Points pointer ring heap addr obj.ptrAddr
  complete : ∀ slot, pointer.isPresent (heap.metas slot) = true →
    pointer.getObjectAddr (heap.metas slot) = addr →
      slot ∈ aliasesOf pointer ring heap obj.ptrAddr

def Evacuating (heap : Heap Meta) (ptr : Slot) : Prop :=
  ∀ slot ∈ aliasesOf pointer ring heap ptr,
    pointer.isEvacuation (heap.metas slot) = true

/-- A freed object is not addressed, and a live one satisfies `live`. -/
def AtStart (heap : Heap Meta) (start : ℕ) (live : Object → Prop) : Prop :=
  ∀ obj, heap.objects start = some obj →
    (obj.freed = true → Unaddressed pointer heap start) ∧ (obj.freed = false → live obj)

/-- Before the marker's visit. -/
def Fresh (heap : Heap Meta) (start : ℕ) : Prop :=
  AtStart pointer heap start (Owned pointer ring heap start)

/-- After it. -/
def Marked (heap : Heap Meta) (start : ℕ) : Prop :=
  AtStart pointer heap start fun obj =>
    Owned pointer ring heap start obj ∧ Evacuating pointer ring heap obj.ptrAddr

/-- Before the write-backer's visit: a live object is marked, or a mutator has
migrated it and left the old header behind. -/
def Ready (heap : Heap Meta) (start : ℕ) : Prop :=
  AtStart pointer heap start fun obj =>
    (Owned pointer ring heap start obj ∧ Evacuating pointer ring heap obj.ptrAddr) ∨
      (Unaddressed pointer heap start ∧
        pointer.isEvacuation (heap.metas obj.ptrAddr) = false)

/-- Only the words of these pointers change, and those that are local afterwards
hold a landing address. -/
structure Redirects (landing : ℕ → Prop) (slots : List Slot) (heap next : Heap Meta) :
    Prop where
  others : ∀ slot, slot ∉ slots → next.metas slot = heap.metas slot
  landed : ∀ slot ∈ slots, pointer.isPresent (next.metas slot) = true →
    landing (pointer.getObjectAddr (next.metas slot))

/-- Evacuation notifiers change no pointer but the object's own and no local
object; a pointer that one reports as removed is not local any more. -/
structure Confined : Prop where
  others : ∀ dsId notifier, notifiers.evac dsId = some notifier →
    ∀ obj dirty heap slot, slot ∉ aliasesOf pointer ring heap obj.ptrAddr →
      (notifier (SwapOut.writeObjectFn obj dirty) obj heap).1.metas slot =
        heap.metas slot
  objects : ∀ dsId notifier, notifiers.evac dsId = some notifier →
    ∀ obj dirty heap,
      (notifier (SwapOut.writeObjectFn obj dirty) obj heap).1.objects = heap.objects
  removed : ∀ dsId notifier, notifiers.evac dsId = some notifier →
    ∀ obj dirty heap,
      (notifier (SwapOut.writeObjectFn obj dirty) obj heap).2 = true →
        ∀ slot ∈ aliasesOf pointer ring heap obj.ptrAddr,
          pointer.isPresent
            ((notifier (SwapOut.writeObjectFn obj dirty) obj heap).1.metas slot) = false
  isShared : ∀ dsId notifier, notifiers.evac dsId = some notifier →
    ∀ obj dirty heap,
      (notifier (SwapOut.writeObjectFn obj dirty) obj heap).2 = false →
        pointer.isShared ((notifier (SwapOut.writeObjectFn obj dirty) obj
            heap).1.metas obj.ptrAddr) =
          pointer.isShared (heap.metas obj.ptrAddr)

/-- `mutator_migrate_object`: the object moves, and its pointers follow by
`mutator_copy`, which clears the evacuation bit. -/
def migrate (heap : Heap Meta) (obj : Object) (newAddr : ℕ) : Heap Meta :=
  (heap.putObject newAddr (some obj)).mapMetas
    (aliasesOf pointer ring heap obj.ptrAddr) fun word => pointer.mutatorCopy word newAddr

/-- A free marks the object and nulls its pointers. -/
def free (heap : Heap Meta) (addr : ℕ) (obj : Object) : Heap Meta :=
  (heap.putObject addr (some { obj with freed := true })).mapMetas
    (aliasesOf pointer ring heap obj.ptrAddr) pointer.nullify

variable {pointer ring kHeaderSize notifiers}
variable {landing : ℕ → Prop} {slots : List Slot} {heap next base : Heap Meta}
variable {start addr : ℕ} {obj other : Object} {ptr : Slot}

theorem Redirects.of_eq (landing : ℕ → Prop) (heq : next = heap) :
    Redirects pointer landing [] heap next where
  others _ _ := by rw [heq]
  landed := by simp

/-! ## What redirected pointers leave behind -/

theorem Unaddressed.redirects (hunaddressed : Unaddressed pointer heap start)
    (hredirects : Redirects pointer landing slots heap next) (haway : ¬ landing start) :
    Unaddressed pointer next start := by
  intro slot hpresent haddr
  by_cases hslot : slot ∈ slots
  · exact haway (haddr ▸ hredirects.landed slot hslot hpresent)
  · rw [hredirects.others slot hslot] at hpresent haddr
    exact hunaddressed slot hpresent haddr

namespace Owned

/-- Objects at different addresses have different pointers. -/
theorem apart (howned : Owned pointer ring heap start obj)
    (hpoints : Points pointer ring heap addr ptr) (hne : start ≠ addr) :
    ∀ slot ∈ aliasesOf pointer ring heap ptr,
      slot ∉ aliasesOf pointer ring heap obj.ptrAddr := by
  intro slot hslot hmem
  exact hne ((howned.points slot hmem).2.symm.trans (hpoints slot hslot).2)

theorem aliasesOf_redirects (howned : Owned pointer ring heap start obj)
    (hredirects : Redirects pointer landing slots heap next)
    (hapart : ∀ slot ∈ slots, slot ∉ aliasesOf pointer ring heap obj.ptrAddr) :
    aliasesOf pointer ring next obj.ptrAddr = aliasesOf pointer ring heap obj.ptrAddr := by
  have hnamed : obj.ptrAddr ∉ slots := fun hmem => hapart _ hmem howned.named
  rw [aliasesOf, aliasesOf, hredirects.others _ hnamed]

theorem redirects (howned : Owned pointer ring heap start obj)
    (hredirects : Redirects pointer landing slots heap next)
    (hapart : ∀ slot ∈ slots, slot ∉ aliasesOf pointer ring heap obj.ptrAddr)
    (haway : ¬ landing start) : Owned pointer ring next start obj := by
  have haliases := howned.aliasesOf_redirects hredirects hapart
  have hkept : ∀ slot ∈ aliasesOf pointer ring heap obj.ptrAddr,
      next.metas slot = heap.metas slot :=
    fun slot hslot => hredirects.others slot fun hmem => hapart slot hmem hslot
  constructor
  case nodup =>
    rw [haliases]
    exact howned.nodup
  case named =>
    rw [haliases]
    exact howned.named
  case points =>
    intro slot hslot
    rw [haliases] at hslot
    rw [hkept slot hslot]
    exact howned.points slot hslot
  case complete =>
    intro slot hpresent haddr
    rw [haliases]
    by_cases hslot : slot ∈ slots
    · exact absurd (haddr ▸ hredirects.landed slot hslot hpresent) haway
    · rw [hredirects.others slot hslot] at hpresent haddr
      exact howned.complete slot hpresent haddr

theorem evacuating_redirects (howned : Owned pointer ring heap start obj)
    (hevacuating : Evacuating pointer ring heap obj.ptrAddr)
    (hredirects : Redirects pointer landing slots heap next)
    (hapart : ∀ slot ∈ slots, slot ∉ aliasesOf pointer ring heap obj.ptrAddr) :
    Evacuating pointer ring next obj.ptrAddr := by
  intro slot hslot
  rw [howned.aliasesOf_redirects hredirects hapart] at hslot
  rw [hredirects.others slot fun hmem => hapart slot hmem hslot]
  exact hevacuating slot hslot

/-- Once an object's own pointers lead elsewhere, none is left. -/
theorem unaddressed (howned : Owned pointer ring heap start obj)
    (hredirects : Redirects pointer landing
      (aliasesOf pointer ring heap obj.ptrAddr) heap next)
    (haway : ¬ landing start) : Unaddressed pointer next start := by
  intro slot hpresent haddr
  by_cases hslot : slot ∈ aliasesOf pointer ring heap obj.ptrAddr
  · exact haway (haddr ▸ hredirects.landed slot hslot hpresent)
  · rw [hredirects.others slot hslot] at hpresent haddr
    exact hslot (howned.complete slot hpresent haddr)

end Owned

/-! ## Objects elsewhere -/

section Elsewhere

variable (hredirects : Redirects pointer landing
  (aliasesOf pointer ring heap ptr) heap next)
variable (hpoints : Points pointer ring heap addr ptr) (hne : start ≠ addr)
variable (haway : ¬ landing start) (hobjects : next.objects start = heap.objects start)

include hredirects hpoints hne haway hobjects

theorem Fresh.redirects (hfresh : Fresh pointer ring heap start) :
    Fresh pointer ring next start := by
  intro obj hobj
  rw [hobjects] at hobj
  obtain ⟨hfreed, hlive⟩ := hfresh obj hobj
  constructor
  · exact fun hfree => (hfreed hfree).redirects hredirects haway
  · exact fun hfree => (hlive hfree).redirects hredirects
      ((hlive hfree).apart hpoints hne) haway

theorem Marked.redirects (hmarked : Marked pointer ring heap start) :
    Marked pointer ring next start := by
  intro obj hobj
  rw [hobjects] at hobj
  obtain ⟨hfreed, hlive⟩ := hmarked obj hobj
  constructor
  · exact fun hfree => (hfreed hfree).redirects hredirects haway
  · intro hfree
    obtain ⟨howned, hevacuating⟩ := hlive hfree
    have hapart := howned.apart hpoints hne
    exact ⟨howned.redirects hredirects hapart haway,
      howned.evacuating_redirects hevacuating hredirects hapart⟩

/-- A header left behind names a pointer without the evacuation bit, which the
redirected pointers had or have lost. -/
theorem Ready.redirects (hready : Ready pointer ring heap start)
    (hevacuation : ∀ slot ∈ aliasesOf pointer ring heap ptr,
      pointer.isEvacuation (heap.metas slot) = true ∨
        pointer.isEvacuation (next.metas slot) = false) :
    Ready pointer ring next start := by
  intro obj hobj
  rw [hobjects] at hobj
  obtain ⟨hfreed, hlive⟩ := hready obj hobj
  constructor
  · exact fun hfree => (hfreed hfree).redirects hredirects haway
  · intro hfree
    rcases hlive hfree with ⟨howned, hevacuating⟩ | ⟨hunaddressed, hcleared⟩
    · have hapart := howned.apart hpoints hne
      exact .inl ⟨howned.redirects hredirects hapart haway,
        howned.evacuating_redirects hevacuating hredirects hapart⟩
    · right
      constructor
      · exact hunaddressed.redirects hredirects haway
      · by_cases hslot : obj.ptrAddr ∈ aliasesOf pointer ring heap ptr
        · rcases hevacuation _ hslot with hset | hclear
          · rw [hcleared] at hset
            cases hset
          · exact hclear
        · rw [hredirects.others _ hslot]
          exact hcleared

end Elsewhere

/-! ## The operations -/

theorem Redirects.of_mapMetas {setter : Meta → Meta} (hnodup : slots.Nodup)
    (hbase : base.metas = heap.metas)
    (hlanded : ∀ slot ∈ slots, pointer.isPresent (setter (heap.metas slot)) = true →
      landing (pointer.getObjectAddr (setter (heap.metas slot)))) :
    Redirects pointer landing slots heap (base.mapMetas slots setter) where
  others slot hslot := by
    rw [Heap.metas_mapMetas_of_notMem _ _ hslot, hbase]
  landed slot hslot := by
    rw [Heap.metas_mapMetas_of_mem _ hnodup _ hslot, hbase]
    exact hlanded slot hslot

namespace Owned

variable (howned : Owned pointer ring heap start obj)

include howned

/-- Marking leaves the pointers where they were. -/
theorem redirects_mark :
    Redirects pointer (· = start) (aliasesOf pointer ring heap obj.ptrAddr) heap
      (Walk.mark pointer ring heap obj) := by
  apply Redirects.of_mapMetas howned.nodup rfl
  intro slot hslot _
  obtain ⟨hpresent, haddr⟩ := howned.points slot hslot
  rw [pointer.getObjectAddr_setEvacuation _ hpresent, haddr]

theorem metas_mark {slot : Slot} (hslot : slot ∈ aliasesOf pointer ring heap obj.ptrAddr) :
    (Walk.mark pointer ring heap obj).metas slot =
      pointer.setEvacuation (heap.metas slot) :=
  Heap.metas_mapMetas_of_mem _ howned.nodup _ hslot

theorem aliasesOf_mark :
    aliasesOf pointer ring (Walk.mark pointer ring heap obj) obj.ptrAddr =
      aliasesOf pointer ring heap obj.ptrAddr := by
  rw [aliasesOf, aliasesOf, howned.metas_mark howned.named,
    pointer.isShared_setEvacuation _ (howned.points _ howned.named).1]

theorem mark : Owned pointer ring (Walk.mark pointer ring heap obj) start obj where
  nodup := by
    rw [howned.aliasesOf_mark]
    exact howned.nodup
  named := by
    rw [howned.aliasesOf_mark]
    exact howned.named
  points := by
    intro slot hslot
    rw [howned.aliasesOf_mark] at hslot
    obtain ⟨hpresent, haddr⟩ := howned.points slot hslot
    rw [howned.metas_mark hslot, pointer.getObjectAddr_setEvacuation _ hpresent]
    exact ⟨pointer.isPresent_setEvacuation _ hpresent, haddr⟩
  complete := by
    intro slot hpresent haddr
    rw [howned.aliasesOf_mark]
    by_contra hslot
    rw [howned.redirects_mark.others slot hslot] at hpresent haddr
    exact hslot (howned.complete slot hpresent haddr)

theorem evacuating_mark :
    Evacuating pointer ring (Walk.mark pointer ring heap obj) obj.ptrAddr := by
  intro slot hslot
  rw [howned.aliasesOf_mark] at hslot
  rw [howned.metas_mark hslot]
  exact pointer.isEvacuation_setEvacuation _ (howned.points slot hslot).1

theorem marked_mark (hobj : heap.objects start = some obj) (hlive : obj.freed = false) :
    Marked pointer ring (Walk.mark pointer ring heap obj) start := by
  intro stored hstored
  rw [Walk.mark, Heap.objects_mapMetas, hobj, Option.some.injEq] at hstored
  subst hstored
  constructor
  · exact fun hfree => absurd (hlive.symm.trans hfree) Bool.false_ne_true
  · exact fun _ => ⟨howned.mark, howned.evacuating_mark⟩

theorem redirects_hotCopy (hbound : addr < pointer.addrBound) (hlanding : landing addr) :
    Redirects pointer landing (aliasesOf pointer ring heap obj.ptrAddr) heap
      (SwapOut.hotCopy pointer ring notifiers heap obj.ptrAddr obj addr) := by
  have hmap : Redirects pointer landing (aliasesOf pointer ring heap obj.ptrAddr) heap
      (((heap.atomicIncRefCnt addr 1).putObject addr
        (some (SwapOut.copyObject notifiers obj))).mapMetas
          (aliasesOf pointer ring heap obj.ptrAddr) fun word =>
            pointer.gcCopy word addr) := by
    apply Redirects.of_mapMetas howned.nodup
    · rfl
    · intro slot hslot _
      rw [pointer.getObjectAddr_gcCopy _ _ (howned.points slot hslot).1 hbound]
      exact hlanding
  exact ⟨hmap.others, hmap.landed⟩

omit howned in
/-- The traversal that makes the pointers remote, after a change to their own
words that keeps the shared bit. -/
theorem redirects_gcWbAll (hnodup : (aliasesOf pointer ring heap obj.ptrAddr).Nodup)
    (hshared : pointer.isShared (base.metas obj.ptrAddr) =
      pointer.isShared (heap.metas obj.ptrAddr))
    (hothers : ∀ slot, slot ∉ aliasesOf pointer ring heap obj.ptrAddr →
      base.metas slot = heap.metas slot) :
    Redirects pointer landing (aliasesOf pointer ring heap obj.ptrAddr) heap
      (SwapOut.gcWbAll pointer ring kHeaderSize base obj.ptrAddr obj) := by
  have haliases : aliasesOf pointer ring base obj.ptrAddr =
      aliasesOf pointer ring heap obj.ptrAddr := by
    rw [aliasesOf, aliasesOf, hshared]
  unfold SwapOut.gcWbAll
  rw [haliases]
  constructor
  · intro slot hslot
    rw [Heap.metas_mapMetas_of_notMem _ _ hslot, hothers slot hslot]
  · intro slot hslot hpresent
    rw [Heap.metas_mapMetas_of_mem _ hnodup _ hslot, pointer.isPresent_gcWb] at hpresent
    cases hpresent

theorem redirects_writeBack {dirty : Bool} (hconfined : Confined pointer ring notifiers) :
    Redirects pointer landing (aliasesOf pointer ring heap obj.ptrAddr) heap
      (SwapOut.writeBack pointer ring kHeaderSize notifiers heap obj.ptrAddr obj
        dirty) := by
  unfold SwapOut.writeBack
  cases hevac : notifiers.evac obj.dsId with
  | none =>
      apply redirects_gcWbAll howned.nodup
      · rw [SwapOut.metas_writeObjectFn]
      · intro slot _
        rw [SwapOut.metas_writeObjectFn]
  | some notifier =>
      have hothers := hconfined.others _ _ hevac obj dirty heap
      have hremoved := hconfined.removed _ _ hevac obj dirty heap
      have hshared := hconfined.isShared _ _ hevac obj dirty heap
      dsimp only
      generalize notifier (SwapOut.writeObjectFn obj dirty) obj heap = result
        at hothers hremoved hshared
      obtain ⟨after, removed⟩ := result
      cases removed with
      | true =>
          constructor
          · exact hothers
          · intro slot hslot hpresent
            dsimp only at hpresent
            rw [hremoved rfl slot hslot] at hpresent
            cases hpresent
      | false => exact redirects_gcWbAll howned.nodup (hshared rfl) hothers

/-- A `swap_out` that finds the evacuation bit set leaves no pointer behind. -/
theorem redirects_swapOut {choices : SwapOutChoices}
    (hconfined : Confined pointer ring notifiers)
    (hevacuation : pointer.isEvacuation (heap.metas obj.ptrAddr) = true)
    (hchoices : ∀ addr ∈ choices.newLocalObjectAddr,
      addr < pointer.addrBound ∧ landing addr) :
    Redirects pointer landing (aliasesOf pointer ring heap obj.ptrAddr) heap
      (Walk.writeBack pointer ring kHeaderSize notifiers choices heap obj) := by
  unfold Walk.writeBack SwapOut.swapOut
  rw [if_pos hevacuation]
  dsimp only
  split
  · cases hchoice : choices.newLocalObjectAddr with
    | some addr =>
        obtain ⟨hbound, hlanding⟩ := hchoices addr hchoice
        exact howned.redirects_hotCopy hbound hlanding
    | none => exact howned.redirects_writeBack hconfined
  · exact howned.redirects_writeBack hconfined

end Owned

theorem objects_writeBack {dirty : Bool} (hconfined : Confined pointer ring notifiers) :
    (SwapOut.writeBack pointer ring kHeaderSize notifiers heap ptr obj dirty).objects =
      heap.objects := by
  unfold SwapOut.writeBack
  cases hevac : notifiers.evac obj.dsId with
  | none =>
      dsimp only
      rw [SwapOut.objects_gcWbAll, SwapOut.objects_writeObjectFn]
  | some notifier =>
      have hobjects := hconfined.objects _ _ hevac obj dirty heap
      dsimp only
      generalize notifier (SwapOut.writeObjectFn obj dirty) obj heap = result at hobjects
      obtain ⟨after, removed⟩ := result
      cases removed with
      | true => exact hobjects
      | false =>
          dsimp only
          rw [SwapOut.objects_gcWbAll]
          exact hobjects

/-- A visit writes no object but the copy. -/
theorem objects_swapOut {choices : SwapOutChoices}
    (hconfined : Confined pointer ring notifiers)
    (haway : start ∉ choices.newLocalObjectAddr) :
    (Walk.writeBack pointer ring kHeaderSize notifiers choices heap obj).objects start =
      heap.objects start := by
  rcases SwapOut.swapOut_cases pointer ring kHeaderSize notifiers choices heap
    obj.ptrAddr obj with hkept | ⟨addr, haddr, hcopied⟩ | hwritten
  · rw [Walk.writeBack, hkept]
  · have hne : start ≠ addr := by
      rintro rfl
      exact haway haddr
    rw [Walk.writeBack, hcopied, SwapOut.hotCopy, Heap.objects_atomicIncRefCnt,
      Heap.objects_mapMetas, Heap.objects_putObject_of_ne _ _ hne,
      Heap.objects_atomicIncRefCnt]
  · rw [Walk.writeBack, hwritten, objects_writeBack hconfined]

theorem redirects_migrate (hnodup : (aliasesOf pointer ring heap obj.ptrAddr).Nodup)
    (hpoints : Points pointer ring heap start obj.ptrAddr)
    (hbound : addr < pointer.addrBound) (hlanding : landing addr) :
    Redirects pointer landing (aliasesOf pointer ring heap obj.ptrAddr) heap
      (migrate pointer ring heap obj addr) := by
  apply Redirects.of_mapMetas hnodup
  · rfl
  · intro slot hslot _
    rw [pointer.getObjectAddr_mutatorCopy _ _ (hpoints slot hslot).1 hbound]
    exact hlanding

theorem isEvacuation_migrate (hnodup : (aliasesOf pointer ring heap obj.ptrAddr).Nodup)
    (hpoints : Points pointer ring heap start obj.ptrAddr) {slot : Slot}
    (hslot : slot ∈ aliasesOf pointer ring heap obj.ptrAddr) :
    pointer.isEvacuation ((migrate pointer ring heap obj addr).metas slot) = false := by
  rw [migrate, Heap.metas_mapMetas_of_mem _ hnodup _ hslot, Heap.metas_putObject]
  exact pointer.isEvacuation_mutatorCopy _ _ (hpoints slot hslot).1

theorem redirects_free (hnodup : (aliasesOf pointer ring heap obj.ptrAddr).Nodup) :
    Redirects pointer landing (aliasesOf pointer ring heap obj.ptrAddr) heap
      (free pointer ring heap addr obj) := by
  apply Redirects.of_mapMetas hnodup
  · rfl
  · intro slot _ hpresent
    rw [pointer.isPresent_of_isNull _ (pointer.isNull_nullify _)] at hpresent
    cases hpresent

theorem isEvacuation_free (hnodup : (aliasesOf pointer ring heap obj.ptrAddr).Nodup)
    {slot : Slot} (hslot : slot ∈ aliasesOf pointer ring heap obj.ptrAddr) :
    pointer.isEvacuation ((free pointer ring heap addr obj).metas slot) = false := by
  rw [free, Heap.metas_mapMetas_of_mem _ hnodup _ hslot]
  exact pointer.isEvacuation_nullify _

end DynamicSwap.Evacuation
