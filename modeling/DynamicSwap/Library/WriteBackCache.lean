import Mathlib

/-!
# Write-back caches

A cache holds some keys as lines, each clean or dirty, in front of a backing
store that holds every key.  Eviction writes back dirty lines only, so a clean
line has to equal its backing value: then loading and evicting do not change
what a read returns, and the cache behaves as a plain map.
-/

namespace DynamicSwap.Library

variable {Key Value : Type*} [DecidableEq Key]

/-- A cached value; `dirty` when the backing store may hold an older one. -/
structure Line (Value : Type*) where
  value : Value
  dirty : Bool

structure WriteBackCache (Key Value : Type*) where
  lines : Key → Option (Line Value)
  backing : Key → Value

namespace WriteBackCache

variable (cache : WriteBackCache Key Value) (key : Key)

/-- What a read of a key returns, loading it first if need be. -/
def read : Value :=
  match cache.lines key with
  | some line => line.value
  | none => cache.backing key

def setLine (line : Option (Line Value)) : WriteBackCache Key Value :=
  { cache with lines := Function.update cache.lines key line }

/-- Fetch a key from the backing store, clean. -/
def load : WriteBackCache Key Value :=
  match cache.lines key with
  | some _ => cache
  | none => cache.setLine key (some ⟨cache.backing key, false⟩)

/-- Overwrite a cached key, which becomes dirty. -/
def write (value : Value) : WriteBackCache Key Value :=
  cache.setLine key (some ⟨value, true⟩)

/-- Drop a key, writing it back when it is dirty. -/
def evict : WriteBackCache Key Value :=
  match cache.lines key with
  | none => cache
  | some line =>
      { cache.setLine key none with
        backing := if line.dirty then
          Function.update cache.backing key line.value else cache.backing }

/-- Two caches that differ at most at one key. -/
def AgreeOff (after : WriteBackCache Key Value) (key : Key)
    (cache : WriteBackCache Key Value) : Prop :=
  ∀ other, other ≠ key →
    after.lines other = cache.lines other ∧ after.backing other = cache.backing other

/-- Clean lines equal their backing values. -/
def Coherent : Prop :=
  ∀ key line, cache.lines key = some line → line.dirty = false →
    line.value = cache.backing key

variable {cache} {key}

@[simp]
theorem lines_setLine_self (line : Option (Line Value)) :
    (cache.setLine key line).lines key = line :=
  Function.update_self ..

@[simp]
theorem lines_setLine_of_ne {other : Key} (line : Option (Line Value))
    (hne : other ≠ key) : (cache.setLine key line).lines other = cache.lines other :=
  Function.update_of_ne hne ..

@[simp]
theorem backing_setLine (line : Option (Line Value)) :
    (cache.setLine key line).backing = cache.backing := rfl

@[simp]
theorem lines_write_self (value : Value) :
    (cache.write key value).lines key = some ⟨value, true⟩ :=
  lines_setLine_self ..

@[simp]
theorem lines_evict_self : (cache.evict key).lines key = none := by
  unfold evict
  cases hline : cache.lines key with
  | none => exact hline
  | some line => exact lines_setLine_self none

theorem load_of_cached {line : Line Value} (hline : cache.lines key = some line) :
    cache.load key = cache := by
  rw [load, hline]

theorem load_of_uncached (hline : cache.lines key = none) :
    cache.load key = cache.setLine key (some ⟨cache.backing key, false⟩) := by
  rw [load, hline]

theorem backing_evict_self {line : Line Value} (hline : cache.lines key = some line) :
    (cache.evict key).backing key =
      if line.dirty then line.value else cache.backing key := by
  rw [evict, hline]
  cases hdirty : line.dirty <;> simp [hdirty]

/-! ## Operations on one key leave the others alone -/

theorem agreeOff_write (value : Value) : (cache.write key value).AgreeOff key cache :=
  fun _ hne => ⟨lines_setLine_of_ne _ hne, rfl⟩

theorem agreeOff_load : (cache.load key).AgreeOff key cache := by
  intro other hne
  unfold load
  cases cache.lines key with
  | some line => exact ⟨rfl, rfl⟩
  | none => exact ⟨lines_setLine_of_ne _ hne, rfl⟩

theorem agreeOff_evict : (cache.evict key).AgreeOff key cache := by
  intro other hne
  unfold evict
  cases cache.lines key with
  | none => exact ⟨rfl, rfl⟩
  | some line =>
      constructor
      · exact lines_setLine_of_ne none hne
      · cases hdirty : line.dirty <;> simp [hdirty, hne]

omit [DecidableEq Key] in
theorem AgreeOff.read {after : WriteBackCache Key Value}
    (hagree : after.AgreeOff key cache) {other : Key} (hne : other ≠ key) :
    after.read other = cache.read other := by
  unfold WriteBackCache.read
  rw [(hagree other hne).1, (hagree other hne).2]

/-! ## What a read returns -/

@[simp]
theorem read_load : (cache.load key).read = cache.read := by
  funext other
  by_cases hother : other = key
  · subst other
    cases hline : cache.lines key with
    | some line => rw [load_of_cached hline]
    | none => simp [read, load_of_uncached hline, hline]
  · exact agreeOff_load.read hother

@[simp]
theorem read_write (value : Value) :
    (cache.write key value).read = Function.update cache.read key value := by
  funext other
  by_cases hother : other = key
  · subst other
    simp [read]
  · rw [Function.update_of_ne hother]
    exact (agreeOff_write value).read hother

theorem Coherent.read_evict (hcoherent : cache.Coherent) :
    (cache.evict key).read = cache.read := by
  funext other
  by_cases hother : other = key
  · subst other
    cases hline : cache.lines key with
    | none => rw [evict, hline]
    | some line =>
        rw [read, lines_evict_self, backing_evict_self hline, read, hline]
        cases hdirty : line.dirty with
        | true => rfl
        | false => exact (hcoherent key line hline hdirty).symm
  · exact agreeOff_evict.read hother

/-! ## Clean lines stay equal to their backing values -/

omit [DecidableEq Key] in
theorem Coherent.of_agreeOff {after : WriteBackCache Key Value}
    (hcoherent : cache.Coherent) (hagree : after.AgreeOff key cache)
    (hkey : ∀ line, after.lines key = some line → line.dirty = false →
      line.value = after.backing key) :
    after.Coherent := by
  intro other line hline hclean
  by_cases heq : other = key
  · subst other
    exact hkey line hline hclean
  · obtain ⟨hlines, hbacking⟩ := hagree other heq
    rw [hbacking]
    exact hcoherent other line (hlines ▸ hline) hclean

theorem Coherent.load (hcoherent : cache.Coherent) : (cache.load key).Coherent := by
  cases hline : cache.lines key with
  | some line => exact (load_of_cached hline).symm ▸ hcoherent
  | none =>
      apply hcoherent.of_agreeOff agreeOff_load
      intro line hloaded _
      rw [load_of_uncached hline, lines_setLine_self, Option.some.injEq] at hloaded
      rw [← hloaded, load_of_uncached hline, backing_setLine]

theorem Coherent.write (hcoherent : cache.Coherent) (value : Value) :
    (cache.write key value).Coherent := by
  apply hcoherent.of_agreeOff (agreeOff_write value)
  intro line hline hclean
  rw [lines_write_self, Option.some.injEq] at hline
  subst hline
  cases hclean

theorem Coherent.evict (hcoherent : cache.Coherent) : (cache.evict key).Coherent := by
  apply hcoherent.of_agreeOff agreeOff_evict
  intro line hline
  rw [lines_evict_self] at hline
  cases hline

end WriteBackCache

end DynamicSwap.Library
