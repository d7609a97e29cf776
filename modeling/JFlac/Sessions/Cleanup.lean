import JFlac.Basic

/-!
# `NativeHandleCleanup`

The ownership token of one native handle: an atomic `jlong` that is zero while some party has
claimed the handle. Every path that wants to release claims first; a synchronous release that fails
puts the handle back, so that the Cleaner can try again.
-/

namespace JFlac.Sessions

/-- `NativeHandleCleanup`, with the `AtomicLong` it keeps. -/
structure Cleanup where
  handle : ℤ
  deriving DecidableEq, Repr

/-- `currentHandle`. -/
def Cleanup.currentHandle (c : Cleanup) : ℤ := c.handle

/-- `claimHandle`: `getAndSet(0)`. -/
def Cleanup.claimHandle (c : Cleanup) : ℤ × Cleanup := (c.handle, ⟨0⟩)

/-- `restoreHandle`: `compareAndSet(0, claimedHandle)`. -/
def Cleanup.restoreHandle (c : Cleanup) (claimedHandle : ℤ) : Bool × Cleanup :=
  if claimedHandle = 0 then (false, c)
  else if c.handle = 0 then (true, ⟨claimedHandle⟩)
  else (false, c)

@[simp] theorem Cleanup.claimHandle_snd (c : Cleanup) : c.claimHandle.2 = ⟨0⟩ := rfl

@[simp] theorem Cleanup.claimHandle_fst (c : Cleanup) : c.claimHandle.1 = c.handle := rfl

/-- A claimed handle goes back into the empty slot. -/
theorem Cleanup.restoreHandle_zero {claimedHandle : ℤ} (h : claimedHandle ≠ 0) :
    (Cleanup.mk 0).restoreHandle claimedHandle = (true, ⟨claimedHandle⟩) := by
  rw [restoreHandle, if_neg h, if_pos rfl]

end JFlac.Sessions
