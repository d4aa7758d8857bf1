import Mathlib.Data.Set.Basic
import PlatformRelayer.Shared.PriceClient

/-!
# Prices from the cache

A price in the cache was answered for a pair with the same `cacheKey`
(`Inv.cached`), and every price that is returned comes from there
(`run_served`). Two pairs have the same key just if slashes move between the end of
the id and the start of the currency (`cacheKey_eq_iff`), so these are the pairs
whose prices are mixed up.
-/

namespace PlatformRelayer

/-! ## Keys -/

def slashes (n : Nat) : String := String.ofList (List.replicate n '/')

/-- The second pair has slashes at the end of its id that the first has at the
start of its currency. -/
def SlashesMoved (p q : String × String) : Prop := ∃ n, q.1 = p.1 ++ slashes n ∧
    p.2 = slashes n ++ q.2

theorem toList_cacheKey (coingeckoID currency : String) :
    (cacheKey coingeckoID currency).toList = joinEscaped '/' coingeckoID.toList
      currency.toList := by
  have hslash : "/".toList = ['/'] := rfl
  simp [cacheKey, doubleSlashes, joinEscaped, hslash]

theorem slashesMoved_iff {p q : String × String} :
    SlashesMoved p q ↔ ∃ n, ShiftedBy '/' n p.1.toList p.2.toList q.1.toList q.2.toList := by
  simp [SlashesMoved, ShiftedBy, slashes, ← String.toList_inj]

theorem cacheKey_eq_iff (p q : String × String) :
    cacheKey p.1 p.2 = cacheKey q.1 q.2 ↔ SlashesMoved p q ∨ SlashesMoved q p := by
  rw [← String.toList_inj, toList_cacheKey, toList_cacheKey, joinEscaped_eq_iff, slashesMoved_iff,
    slashesMoved_iff, exists_or]

/-! ## Histories -/

namespace CachedPriceClient

variable {Price : Type} {cacheRefreshInterval : Duration} {start : Time} {h : List (Event Price)}
  {s s' : State Price}
  {e : Event Price}

/-- The internal client has answered this price for the pair. -/
def Answered (h : List (Event Price)) (coingeckoID currency : String) (price : Price) : Prop :=
  ∃ i, .answered i coingeckoID currency price ∈ h

theorem Answered.later {id currency : String} {price : Price} (ha : Answered h id currency price)
    (e : Event Price) : Answered (e :: h) id currency price := by
  obtain ⟨i, hi⟩ := ha
  exact ⟨i, List.mem_cons_of_mem _ hi⟩

/-- A response for a key: its time is past, and its price was answered for a pair
with this key. -/
def Genuine (h : List (Event Price)) (s : State Price) (key : String)
    (r : PriceResponse Price) : Prop :=
  r.lastUpdated ≤ s.now ∧ ∃ id currency, cacheKey id currency = key ∧ Answered h id currency r.price

theorem Genuine.later {key : String} {r : PriceResponse Price} (hr : Genuine h s key r)
    (hnow : s.now ≤ s'.now) (e : Event Price) : Genuine (e :: h) s' key r := by
  obtain ⟨htime, id, currency, hkey, ha⟩ := hr
  exact ⟨htime.trans hnow, id, currency, hkey, ha.later e⟩

/-- Where the prices in a client come from. -/
structure Inv (h : List (Event Price)) (s : State Price) : Prop where
  cached (key : String) (r : PriceResponse Price) : s.cache key = some r → Genuine h s key r
  checking (i : Nat) (id currency : String) (r : PriceResponse Price) :
    s.calls i = .checking id currency (some r) → Genuine h s (cacheKey id currency) r
  storing (i : Nat) (id currency : String) (r : PriceResponse Price) :
    s.calls i = .storing id currency r → r.lastUpdated ≤ s.now ∧ Answered h id currency r.price

theorem Inv.goTo (hs : Inv h s) {now : Time} (hnow : s.now ≤ now) (e : Event Price) (i : Nat)
    {phase : Phase Price}
    (hchecking : ∀ id currency r, phase = .checking id currency (some r) →
      Genuine h s (cacheKey id currency) r)
    (hstoring : ∀ id currency r, phase = .storing id currency r → r.lastUpdated ≤ now ∧
      Answered (e :: h) id currency r.price) : Inv (e :: h) (s.goTo i phase now) where
  cached key r hr := (hs.cached key r hr).later hnow e
  checking j id currency r hj := by
    by_cases hi : j = i
    · subst hi
      exact (hchecking id currency r (by simpa using hj)).later hnow e
    · rw [calls_goTo_of_ne _ _ _ hi] at hj
      exact (hs.checking j id currency r hj).later hnow e
  storing j id currency r hj := by
    by_cases hi : j = i
    · subst hi
      exact hstoring id currency r (by simpa using hj)
    · rw [calls_goTo_of_ne _ _ _ hi] at hj
      obtain ⟨htime, ha⟩ := hs.storing j id currency r hj
      exact ⟨htime.trans hnow, ha.later e⟩

theorem Inv.step (hs : Inv h s) (hstep : Step cacheRefreshInterval s e s') : Inv (e :: h) s' := by
  cases hstep with
  | look _ =>
    refine hs.goTo le_rfl _ _ ?_ (by simp)
    intro id currency r hr
    obtain ⟨rfl, rfl, hfound⟩ := Phase.checking.inj hr
    exact hs.cached _ r hfound
  | hit _ hnow _ => exact hs.goTo hnow _ _ (by simp) (by simp)
  | miss _ hnow _ => exact hs.goTo hnow _ _ (by simp) (by simp)
  | answer price _ hnow =>
    refine hs.goTo hnow _ _ (by simp) ?_
    rintro _ _ _ ⟨⟩
    exact ⟨le_rfl, _, List.mem_cons_self⟩
  | fail err _ => exact hs.goTo le_rfl _ _ (by simp) (by simp)
  | @store i id currency r hi =>
    obtain ⟨htime, ha⟩ := hs.storing i id currency r hi
    have hgo : Inv _ (s.goTo i .returned s.now) :=
      hs.goTo le_rfl (.returned i id currency r.price) i (by simp) (by simp)
    refine ⟨fun key r' hr' => ?_, hgo.checking, hgo.storing⟩
    by_cases hkey : key = cacheKey id currency
    · subst hkey
      obtain rfl : r = r' := by simpa using hr'
      exact ⟨htime, id, currency, rfl, ha.later _⟩
    · rw [cache_put_of_ne _ _ hkey] at hr'
      exact hgo.cached key r' hr'

/-- A price that is returned was answered for a pair with the same key; if prices
are stale at once, for the same pair. -/
def Served (cacheRefreshInterval : Duration) (h : List (Event Price)) : Prop :=
  ∀ i id currency price, .returned i id currency price ∈ h → ∃ id' currency',
    cacheKey id' currency' = cacheKey id currency ∧ Answered h id' currency' price ∧
      (cacheRefreshInterval < 0 → id' = id ∧ currency' = currency)

theorem Served.cons (hh : Served cacheRefreshInterval h)
    (he : ∀ i id currency price, e = .returned i id currency price → ∃ id' currency',
      cacheKey id' currency' = cacheKey id currency ∧ Answered h id' currency' price ∧
        (cacheRefreshInterval < 0 → id' = id ∧ currency' = currency)) :
        Served cacheRefreshInterval (e :: h) := by
  intro i id currency price hm
  obtain ⟨id', currency', hkey, ha, hsame⟩ :
    ∃ id' currency', cacheKey id' currency' = cacheKey id currency ∧
      Answered h id' currency' price ∧
      (cacheRefreshInterval < 0 → id' = id ∧ currency' = currency) := by
    rcases List.mem_cons.mp hm with rfl | hm
    · exact he i id currency price rfl
    · exact hh i id currency price hm
  exact ⟨id', currency', hkey, ha.later e, hsame⟩

theorem stale_of_neg {r : PriceResponse Price} {now : Time} (hr : r.lastUpdated ≤ now)
    (hneg : cacheRefreshInterval < 0) : r.stale cacheRefreshInterval now = true :=
  decide_eq_true (lt_of_lt_of_le hneg (Int.sub_nonneg_of_le hr))

theorem Served.step (hh : Served cacheRefreshInterval h) (hs : Inv h s)
    (hstep : Step cacheRefreshInterval s e s') : Served cacheRefreshInterval (e :: h) := by
  refine hh.cons ?_
  cases hstep with
  | hit hi hnow hfresh =>
    rintro _ _ _ _ ⟨⟩
    obtain ⟨htime, id', currency', hkey, ha⟩ := hs.checking _ _ _ _ hi
    refine ⟨id', currency', hkey, ha, fun hneg => ?_⟩
    rw [stale_of_neg (htime.trans hnow) hneg] at hfresh
    cases hfresh
  | store hi =>
    rintro _ _ _ _ ⟨⟩
    exact ⟨_, _, rfl, (hs.storing _ _ _ _ hi).2, fun _ => ⟨rfl, rfl⟩⟩
  | look => rintro _ _ _ _ ⟨⟩
  | miss => rintro _ _ _ _ ⟨⟩
  | answer => rintro _ _ _ _ ⟨⟩
  | fail => rintro _ _ _ _ ⟨⟩

theorem run_served (hrun : Run cacheRefreshInterval start h s) : Served cacheRefreshInterval h := by
  refine (hrun.invariant (fun h s => Inv h s ∧ Served cacheRefreshInterval h) ?_ ?_).2
  · refine ⟨⟨?_, ?_, ?_⟩, ?_⟩
    · simp
    · simp
    · simp
    · simp [Served]
  · intro h s e s' ⟨hs, hh⟩ hstep
    exact ⟨hs.step hstep, hh.step hs hstep⟩

/-- A call for one pair, and then one for another with the same key. -/
def mixedHistory (p q : String × String) (price : Price) : List (Event Price) :=
  [.returned 1 q.1 q.2 price, .looked 1 q.1 q.2, .returned 0 p.1 p.2 price,
    .answered 0 p.1 p.2 price, .missed 0 p.1 p.2, .looked 0 p.1 p.2]

theorem run_mixedHistory {p q : String × String} (hkey : cacheKey p.1 p.2 = cacheKey q.1 q.2)
    (hinterval : 0 ≤ cacheRefreshInterval) (price : Price) :
    ∃ s, Run cacheRefreshInterval 0 (mixedHistory p q price) s := by
  let s₀ : State Price := { now := 0 }
  let s₁ := s₀.goTo 0 (.checking p.1 p.2 none) 0
  let s₂ := s₁.goTo 0 (.asking p.1 p.2) 0
  let s₃ := s₂.goTo 0 (.storing p.1 p.2 ⟨price, 0⟩) 0
  let s₄ := (s₃.goTo 0 .returned 0).put (cacheKey p.1 p.2) ⟨price, 0⟩
  have hlook : Step cacheRefreshInterval s₀ (.looked 0 p.1 p.2) s₁ := .look rfl
  have hmiss : Step cacheRefreshInterval s₁ (.missed 0 p.1 p.2) s₂ :=
    .miss (calls_goTo_self ..) le_rfl (by simp)
  have hanswer : Step cacheRefreshInterval s₂ (.answered 0 p.1 p.2 price) s₃ :=
    .answer price (calls_goTo_self ..) le_rfl
  have hstore : Step cacheRefreshInterval s₃ (.returned 0 p.1 p.2 price) s₄ :=
    .store (calls_goTo_self ..)
  have hfound : s₄.cache (cacheKey q.1 q.2) = some ⟨price, 0⟩ := by
    rw [← hkey]
    exact cache_put_self ..
  let s₅ := s₄.goTo 1 (.checking q.1 q.2 (some ⟨price, 0⟩)) 0
  have hlook' : Step cacheRefreshInterval s₄ (.looked 1 q.1 q.2) s₅ := by
    have h : Step cacheRefreshInterval s₄ (.looked 1 q.1 q.2) _ := .look rfl
    rwa [hfound] at h
  have hhit : Step cacheRefreshInterval s₅ (.returned 1 q.1 q.2 price) (s₅.goTo 1 .returned 0) :=
    .hit (r := ⟨price, 0⟩) (calls_goTo_self ..) le_rfl (decide_eq_false (by simpa using hinterval))
  exact ⟨_, .step _
    (.step _ (.step _ (.step _ (.step _ (.step _ .start hlook) hmiss) hanswer) hstore) hlook') hhit⟩

end CachedPriceClient

open CachedPriceClient in
/-- Each price that is returned in the history is one that the internal client
answered for the same pair. -/
def NotMixedUp {Price : Type} (h : List (CachedPriceClient.Event Price)) : Prop :=
  ∀ i id currency price, .returned i id currency price ∈ h → Answered h id currency price

theorem prices_not_mixed_up_iff {Price : Type} [Inhabited Price] (cacheRefreshInterval : Duration)
    (asked : Set (String × String)) :
    ((∀ start (h : List (CachedPriceClient.Event Price)) s,
      CachedPriceClient.Run cacheRefreshInterval start h s →
        (∀ e ∈ h, e.asked ∈ asked) → NotMixedUp h) ↔
      (0 ≤ cacheRefreshInterval → ∀ p ∈ asked, ∀ q ∈ asked, SlashesMoved p q → p = q)) ∧
    ∀ p q : String × String, cacheKey p.1 p.2 = cacheKey q.1 q.2 ↔ SlashesMoved p q ∨
      SlashesMoved q p := by
  refine ⟨⟨fun hall hinterval p hp q hq hmoved => ?_, fun hapart start h s hrun hasked => ?_⟩,
    cacheKey_eq_iff⟩
  · -- The second call is served the price of the first, so it was answered for the same pair.
    obtain ⟨s, hrun⟩ := CachedPriceClient.run_mixedHistory ((cacheKey_eq_iff p q).mpr (.inl hmoved))
      hinterval (default : Price)
    have hasked : ∀ e ∈ CachedPriceClient.mixedHistory p q (default : Price), e.asked ∈ asked := by
      simp [CachedPriceClient.mixedHistory, CachedPriceClient.Event.asked, hp, hq]
    obtain ⟨i, hi⟩ :=
      hall 0 _ s hrun hasked 1 q.1 q.2 default (by simp [CachedPriceClient.mixedHistory])
    obtain ⟨-, h₁, h₂⟩ : i = 0 ∧ q.1 = p.1 ∧
      q.2 = p.2 := by simpa [CachedPriceClient.mixedHistory] using hi
    exact Prod.ext h₁.symm h₂.symm
  · intro i id currency price hm
    obtain ⟨id', currency', hkey, ⟨j, hj⟩, hsame⟩ :=
      CachedPriceClient.run_served hrun i id currency price hm
    obtain ⟨rfl, rfl⟩ : id' = id ∧ currency' = currency := by
      rcases lt_or_ge cacheRefreshInterval 0 with hneg | hinterval
      · exact hsame hneg
      have hp : (id, currency) ∈ asked := hasked _ hm
      have hq : (id', currency') ∈ asked := hasked _ hj
      rcases (cacheKey_eq_iff (id', currency') (id, currency)).mp hkey with hmoved | hmoved
      · exact Prod.mk.inj (hapart hinterval _ hq _ hp hmoved)
      · exact Prod.mk.inj (hapart hinterval _ hp _ hq hmoved).symm
    exact ⟨j, hj⟩

/-- A slash at the end of the id, and one at the start of the currency. -/
theorem prices_mixed_up : ("a/", "b") ≠ (("a", "/b") : String × String) ∧
    cacheKey "a/" "b" = cacheKey "a" "/b" ∧
    ∃ (h : List (CachedPriceClient.Event Nat)) (s : _), CachedPriceClient.Run minute 0 h s ∧
      ¬NotMixedUp h := by
  have hkey : cacheKey "a/" "b" = cacheKey "a" "/b" := by decide +kernel
  refine ⟨by decide, hkey, ?_⟩
  obtain ⟨s, hrun⟩ := CachedPriceClient.run_mixedHistory (p := ("a/", "b")) (q := ("a", "/b")) hkey
    (show 0 ≤ minute by decide) 5
  refine ⟨_, s, hrun, fun hn => ?_⟩
  obtain ⟨i, hi⟩ := hn 1 "a" "/b" 5 List.mem_cons_self
  simp [CachedPriceClient.mixedHistory] at hi

end PlatformRelayer
