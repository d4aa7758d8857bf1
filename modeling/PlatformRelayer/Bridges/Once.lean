import Mathlib.Logic.Function.Basic
import PlatformRelayer.Framework.Trace
import PlatformRelayer.Ibcv2.Errors
import PlatformRelayer.Shared.Times

/-!
# Actions that run once per key

`OnceWithKey.Do`, through which the bridge clients ask their nodes, called by any
number of goroutines. A call takes the lock to find the entry for its key or to
make one, runs the action of the entry or waits for the call that runs it,
records an error in the entry, and takes the lock again to clean up. Each of these
is one step, and between them the other calls go on.

The clock is read only under the lock, each time not before the last; a call is
made at some time that is not after what it reads there. An action is known by the
number of the call it was passed to, and an entry by the number of the call that
made it. Actions that panic are left out.
-/

namespace PlatformRelayer

structure Outcome (T : Type) where
  value : T
  err : Option Err

/-- The outcome as a caller goes by it. -/
def Outcome.result {T : Type} : Outcome T → Except Err T
  | ⟨value, none⟩ => .ok value
  | ⟨_, some err⟩ => .error err

/-- A function that `sync.OnceValues` returns: its first caller runs the action,
and a caller that comes while it runs waits. -/
inductive OnceValues (T : Type) where
  | notStarted
  | running (caller : Nat)
  | done (outcome : Outcome T)

structure OnceWithTimeout (T : Type) where
  once : OnceValues T := .notStarted
  errorTimeout : Time
  successTimeout : Time
  err : Option Err := none

structure OnceWithKey where
  successTimeout : Duration
  errorTimeout : Duration

/-- The `txOnce` of both bridge clients. -/
def txOnce : OnceWithKey := ⟨minute, 5 * second⟩

def EVMBridgeClient.latestTimestampOnce : OnceWithKey := ⟨12 * second, 200000000⟩

def CosmosBridgeClient.latestTimestampOnce : OnceWithKey := ⟨6 * second, 200000000⟩

section Entry

variable {T : Type}

/-- The clock is read for each of the timeouts. -/
def newOnceWithTimeout (successTimeout errorTimeout : Duration)
    (errorNow successNow : Time) : OnceWithTimeout T where
  errorTimeout := errorNow + errorTimeout
  successTimeout := successNow + successTimeout

def OnceWithTimeout.isTimedOut (o : OnceWithTimeout T) (errorNow successNow : Time) : Bool :=
  let errorTimeout := !decide (errorNow < o.errorTimeout) && o.err.isSome
  let successTimeout := !decide (successNow < o.successTimeout) && o.err.isNone
  errorTimeout || successTimeout

def OnceWithTimeout.setError (o : OnceWithTimeout T) (err : Err) : OnceWithTimeout T :=
  { o with err := some err }

theorem OnceWithTimeout.isTimedOut_iff (o : OnceWithTimeout T) (errorNow successNow : Time) :
    o.isTimedOut errorNow successNow = true ↔
      o.successTimeout ≤ successNow ∧ o.err = none ∨ o.errorTimeout ≤ errorNow ∧ o.err ≠ none := by
  cases h : o.err with
  | none => simp [isTimedOut, h]
  | some err => simp [isTimedOut, h]

/-- An entry that is used is in time, or an error is recorded in it. -/
theorem OnceWithTimeout.of_not_isTimedOut (o : OnceWithTimeout T) {errorNow successNow : Time}
    (h : o.isTimedOut errorNow successNow = false) : successNow < o.successTimeout ∨
      o.err ≠ none := by
  by_cases herr : o.err = none
  · have hlt : ¬o.successTimeout ≤ successNow := fun hge => by
      rw [(o.isTimedOut_iff ..).mpr (.inl ⟨hge, herr⟩)] at h
      cases h
    exact .inl (Int.not_le.mp hlt)
  · exact .inr herr

theorem OnceWithTimeout.lt_of_not_isTimedOut (o : OnceWithTimeout T) {errorNow successNow : Time}
    (h : o.isTimedOut errorNow successNow = false)
    (herr : o.err ≠ none) : errorNow < o.errorTimeout := by
  refine Int.not_le.mp fun hge => ?_
  rw [(o.isTimedOut_iff ..).mpr (.inr ⟨hge, herr⟩)] at h
  cases h

end Entry

namespace OnceWithKey

/-- A key of the map `onces`, which may be of any type: one that a call is made
with, or a pointer to an entry. -/
inductive MapKey (K : Type) where
  | caller (key : K)
  | once (entry : Nat)
  deriving DecidableEq

/-- The key a call is made with, and when it is made. -/
structure Made (K : Type) where
  key : K
  time : Time

/-- Where a call of `Do` is. One that has got its outcome may have an error to
record. -/
inductive Phase (K T : Type) where
  | notCalled
  | called (made : Made K)
  | holding (made : Made K) (entry : Nat)
  | running (made : Made K) (entry : Nat)
  | got (made : Made K) (entry : Nat) (outcome : Outcome T) (unrecorded : Option Err)
  | returned (made : Made K)

structure State (K T : Type) where
  onces : MapKey K → Option Nat := fun _ => none
  entries : Nat → OnceWithTimeout T := fun _ => newOnceWithTimeout 0 0 0 0
  calls : Nat → Phase K T := fun _ => .notCalled
  now : Time

/-- What a call does, with the times it reads: for the error timeout and for the
success timeout. -/
inductive Event (K T : Type) where
  | called (call : Nat) (made : Made K)
  | found (call : Nat) (entry : Nat)
  | created (call : Nat) (made : Made K) (errorNow successNow : Time)
  | started (call : Nat) (entry : Nat)
  | finished (call : Nat) (entry : Nat) (outcome : Outcome T)
  | joined (call : Nat) (entry : Nat)
  | recorded (call : Nat) (entry : Nat) (err : Err)
  | returned (call : Nat) (made : Made K) (entry : Nat) (outcome : Outcome T)
    (errorNow successNow : Time)

variable {K T : Type}

def State.goTo (s : State K T) (call : Nat) (phase : Phase K T) (now : Time) : State K T :=
  { s with calls := Function.update s.calls call phase, now := now }

def State.setEntry (s : State K T) (entry : Nat) (once : OnceWithTimeout T) : State K T :=
  { s with entries := Function.update s.entries entry once }

def State.setOnce (s : State K T) (entry : Nat) (once : OnceValues T) : State K T :=
  s.setEntry entry { s.entries entry with once := once }

section State

variable (s : State K T) (i j : Nat) (phase : Phase K T) (now : Time) (once : OnceWithTimeout T)

@[simp] theorem onces_goTo : (s.goTo i phase now).onces = s.onces := rfl

@[simp] theorem entries_goTo : (s.goTo i phase now).entries = s.entries := rfl

@[simp] theorem now_goTo : (s.goTo i phase now).now = now := rfl

@[simp] theorem calls_goTo_self : (s.goTo i phase now).calls i = phase := Function.update_self ..

theorem calls_goTo_of_ne {i j : Nat} (h : j ≠ i) : (s.goTo i phase now).calls j = s.calls j :=
  Function.update_of_ne h ..

@[simp] theorem onces_setEntry : (s.setEntry j once).onces = s.onces := rfl

@[simp] theorem calls_setEntry : (s.setEntry j once).calls = s.calls := rfl

@[simp] theorem entries_setEntry_self : (s.setEntry j once).entries j = once :=
  Function.update_self ..

theorem entries_setEntry_of_ne {i j : Nat}
    (h : i ≠ j) : (s.setEntry j once).entries i = s.entries i :=
  Function.update_of_ne h ..

@[simp] theorem entries_setOnce_self (once : OnceValues T) :
    (s.setOnce j once).entries j = { s.entries j with once := once } := entries_setEntry_self ..

end State

variable [DecidableEq K]

/-- `o.onces[key] = once`. -/
def State.put (s : State K T) (key : MapKey K) (entry : Nat) : State K T :=
  { s with onces := Function.update s.onces key (some entry) }

/-- `delete(o.onces, key)`. -/
def State.delete (s : State K T) (key : MapKey K) : State K T :=
  { s with onces := Function.update s.onces key none }

/-- The end of `Do`, which deletes the entry if it is timed out: what it deletes
is the key that is the entry. -/
def State.cleanUp (s : State K T) (entry : Nat) (errorNow successNow : Time) : State K T :=
  if (s.entries entry).isTimedOut errorNow successNow then s.delete (.once entry) else s

section Map

variable (s : State K T) (j : Nat) (key : MapKey K) (errorNow successNow : Time)

@[simp] theorem entries_put : (s.put key j).entries = s.entries := rfl

@[simp] theorem calls_put : (s.put key j).calls = s.calls := rfl

@[simp] theorem onces_put_self : (s.put key j).onces key = some j := Function.update_self ..

theorem onces_put_of_ne {key key' : MapKey K}
    (h : key' ≠ key) : (s.put key j).onces key' = s.onces key' :=
  Function.update_of_ne h ..

theorem onces_delete_of_ne {key key' : MapKey K}
    (h : key' ≠ key) : (s.delete key).onces key' = s.onces key' :=
  Function.update_of_ne h ..

@[simp] theorem entries_cleanUp : (s.cleanUp j errorNow successNow).entries = s.entries := by
  rw [State.cleanUp, apply_ite State.entries]
  exact ite_self _

@[simp] theorem calls_cleanUp : (s.cleanUp j errorNow successNow).calls = s.calls := by
  rw [State.cleanUp, apply_ite State.calls]
  exact ite_self _

/-- No key that a call is made with is ever deleted. -/
@[simp] theorem onces_cleanUp (key : K) :
    (s.cleanUp j errorNow successNow).onces (.caller key) = s.onces (.caller key) := by
  have hkey : MapKey.caller key ≠ .once j := by simp
  unfold State.cleanUp
  split
  · exact onces_delete_of_ne s hkey
  · rfl

end Map

/-- A step of one of the calls. -/
inductive Step (o : OnceWithKey) : State K T → Event K T → State K T → Prop where
  | call {s : State K T} {i : Nat} (made : Made K) :
    s.calls i = .notCalled → Step o s (.called i made) (s.goTo i (.called made) s.now)
  | find {s : State K T} {i j : Nat} {made : Made K} {errorNow successNow : Time} :
    s.calls i = .called made → made.time ≤ errorNow → s.now ≤ errorNow → errorNow ≤ successNow →
    s.onces (.caller made.key) = some j → (s.entries j).isTimedOut errorNow successNow = false →
    Step o s (.found i j) (s.goTo i (.holding made j) successNow)
  | create {s : State K T} {i : Nat} {made : Made K}
    {errorNow successNow newErrorNow newSuccessNow : Time} :
    s.calls i = .called made → made.time ≤ errorNow → s.now ≤ errorNow → errorNow ≤ successNow →
    (∀ j, s.onces (.caller made.key) = some j →
      (s.entries j).isTimedOut errorNow successNow = true) →
    successNow ≤ newErrorNow → newErrorNow ≤ newSuccessNow →
    Step o s (.created i made newErrorNow newSuccessNow)
      (((s.setEntry i
        (newOnceWithTimeout o.successTimeout o.errorTimeout newErrorNow newSuccessNow)).put
        (.caller made.key) i).goTo i (.holding made i) newSuccessNow)
  | start {s : State K T} {i j : Nat} {made : Made K} :
    s.calls i = .holding made j → (s.entries j).once = .notStarted →
    Step o s (.started i j) ((s.setOnce j (.running i)).goTo i (.running made j) s.now)
  | finish {s : State K T} {i j : Nat} {made : Made K} (outcome : Outcome T) :
    s.calls i = .running made j →
    Step o s (.finished i j outcome)
      ((s.setOnce j (.done outcome)).goTo i (.got made j outcome outcome.err) s.now)
  | join {s : State K T} {i j : Nat} {made : Made K} {outcome : Outcome T} :
    s.calls i = .holding made j → (s.entries j).once = .done outcome →
    Step o s (.joined i j) (s.goTo i (.got made j outcome outcome.err) s.now)
  | record {s : State K T} {i j : Nat} {made : Made K} {outcome : Outcome T} {err : Err} :
    s.calls i = .got made j outcome (some err) →
    Step o s (.recorded i j err)
      ((s.setEntry j ((s.entries j).setError err)).goTo i (.got made j outcome none) s.now)
  | ret {s : State K T} {i j : Nat} {made : Made K} {outcome : Outcome T}
    {errorNow successNow : Time} :
    s.calls i = .got made j outcome none → s.now ≤ errorNow → errorNow ≤ successNow →
    Step o s (.returned i made j outcome errorNow successNow)
      ((s.cleanUp j errorNow successNow).goTo i (.returned made) successNow)

/-- A history of calls on a new `OnceWithKey`. -/
abbrev Run (o : OnceWithKey) (start : Time) : List (Event K T) → State K T → Prop :=
  Trace (Step o) { now := start }

end OnceWithKey

end PlatformRelayer
