import Mathlib.Logic.Function.Basic
import PlatformRelayer.Framework.Escape
import PlatformRelayer.Framework.Trace
import PlatformRelayer.Ibcv2.Errors

/-!
# The price client with a cache

`GetSimplePrice` of the `CachedPriceClient`, called by any number of goroutines. A
call reads the cache under the lock; if what it has read is not a fresh price it
asks the internal client, and then writes to the cache under the lock. Between
these the other calls go on. A map is a function, and a price whatever the internal client
returns.
-/

namespace PlatformRelayer

/-- `strings.ReplaceAll(s, "/", "//")`. -/
def doubleSlashes (s : String) : String := String.ofList (escape '/' s.toList)

def cacheKey (coingeckoID currency : String) : String :=
  doubleSlashes coingeckoID ++ "/" ++ doubleSlashes currency

structure PriceResponse (Price : Type) where
  price : Price
  lastUpdated : Time

/-- The price is too old to be returned from the cache. -/
def PriceResponse.stale {Price : Type} (cacheRefreshInterval : Duration) (now : Time)
    (r : PriceResponse Price) : Bool :=
  now - r.lastUpdated > cacheRefreshInterval

namespace CachedPriceClient

variable {Price : Type}

/-- Where a call of `GetSimplePrice` is. -/
inductive Phase (Price : Type) where
  | notCalled
  | checking (coingeckoID currency : String) (found : Option (PriceResponse Price))
  | asking (coingeckoID currency : String)
  | storing (coingeckoID currency : String) (priceResponse : PriceResponse Price)
  | returned

structure State (Price : Type) where
  cache : String → Option (PriceResponse Price) := fun _ => none
  calls : Nat → Phase Price := fun _ => .notCalled
  now : Time

/-- What a call does: it reads the cache, does not find a fresh price in it, is
answered by the internal client, and returns. -/
inductive Event (Price : Type) where
  | looked (call : Nat) (coingeckoID currency : String)
  | missed (call : Nat) (coingeckoID currency : String)
  | answered (call : Nat) (coingeckoID currency : String) (price : Price)
  | failed (call : Nat) (coingeckoID currency : String) (err : Err)
  | returned (call : Nat) (coingeckoID currency : String) (price : Price)

/-- What a call was made with. -/
def Event.asked : Event Price → String × String
  | .looked _ coingeckoID currency => (coingeckoID, currency)
  | .missed _ coingeckoID currency => (coingeckoID, currency)
  | .answered _ coingeckoID currency _ => (coingeckoID, currency)
  | .failed _ coingeckoID currency _ => (coingeckoID, currency)
  | .returned _ coingeckoID currency _ => (coingeckoID, currency)

def State.goTo (s : State Price) (call : Nat) (phase : Phase Price) (now : Time) : State Price :=
  { s with calls := Function.update s.calls call phase, now := now }

/-- `c.cache[key] = priceResponse`. -/
def State.put (s : State Price) (key : String) (priceResponse : PriceResponse Price) :
    State Price :=
  { s with cache := Function.update s.cache key (some priceResponse) }

section State

variable (s : State Price) (i : Nat) (phase : Phase Price) (now : Time) (key : String)
  (r : PriceResponse Price)

@[simp] theorem cache_goTo : (s.goTo i phase now).cache = s.cache := rfl

@[simp] theorem now_goTo : (s.goTo i phase now).now = now := rfl

@[simp] theorem calls_goTo_self : (s.goTo i phase now).calls i = phase := Function.update_self ..

theorem calls_goTo_of_ne {i j : Nat} (h : j ≠ i) : (s.goTo i phase now).calls j = s.calls j :=
  Function.update_of_ne h ..

@[simp] theorem calls_put : (s.put key r).calls = s.calls := rfl

@[simp] theorem now_put : (s.put key r).now = s.now := rfl

@[simp] theorem cache_put_self : (s.put key r).cache key = some r := Function.update_self ..

theorem cache_put_of_ne {key key' : String}
    (h : key' ≠ key) : (s.put key r).cache key' = s.cache key' :=
  Function.update_of_ne h ..

end State

/-- A step of one of the calls, at a clock that does not go back. -/
inductive Step (cacheRefreshInterval : Duration) : State Price → Event Price → State Price →
    Prop where
  | look {s : State Price} {i : Nat} {id currency : String} :
    s.calls i = .notCalled →
    Step cacheRefreshInterval s (.looked i id currency)
      (s.goTo i (.checking id currency (s.cache (cacheKey id currency))) s.now)
  | hit {s : State Price} {i : Nat} {id currency : String} {r : PriceResponse Price} {now : Time} :
    s.calls i = .checking id currency (some r) → s.now ≤ now →
    r.stale cacheRefreshInterval now = false →
    Step cacheRefreshInterval s (.returned i id currency r.price) (s.goTo i .returned now)
  | miss {s : State Price} {i : Nat} {id currency : String} {found : Option (PriceResponse Price)}
    {now : Time} : s.calls i = .checking id currency found → s.now ≤ now →
    (∀ r, found = some r → r.stale cacheRefreshInterval now = true) →
    Step cacheRefreshInterval s (.missed i id currency) (s.goTo i (.asking id currency) now)
  | answer {s : State Price} {i : Nat} {id currency : String} {now : Time} (price : Price) :
    s.calls i = .asking id currency → s.now ≤ now →
    Step cacheRefreshInterval s (.answered i id currency price)
    (s.goTo i (.storing id currency ⟨price, now⟩) now)
  | fail {s : State Price} {i : Nat} {id currency : String} (err : Err) :
    s.calls i = .asking id currency →
    Step cacheRefreshInterval s (.failed i id currency err) (s.goTo i .returned s.now)
  | store {s : State Price} {i : Nat} {id currency : String} {r : PriceResponse Price} :
    s.calls i = .storing id currency r →
    Step cacheRefreshInterval s (.returned i id currency r.price)
      ((s.goTo i .returned s.now).put (cacheKey id currency) r)

/-- A history of calls on a client that is new at `start`. -/
abbrev Run (cacheRefreshInterval : Duration)
    (start : Time) : List (Event Price) → State Price → Prop :=
  Trace (Step cacheRefreshInterval) { now := start }

end CachedPriceClient

end PlatformRelayer
