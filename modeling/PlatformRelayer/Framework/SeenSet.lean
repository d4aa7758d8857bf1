import Mathlib.Data.List.Basic

/-!
# Loops that keep a set of what was seen

A loop goes over items, each with a name or none, and collects the value of each
name once: it keeps a set, passes over the items whose names are in it, and
evaluates the names of the others. What the loop puts into the set for an item
is a parameter (`Scan.key`), so that a loop with a wrong key is one too.

`Scan.exact` is the loop that puts in the name itself, and it does what the loop
is for (`values_exact`, `kept_exact`). Another one does the same if its keys say
of each item what the names before it do (`Scan.Faithful`), and, where no two
names have one value, only then (`values_kept_eq`, `faithful_of_eq`).
-/

namespace PlatformRelayer

/-- A loop with a set: the name of an item, the value of a name, and what goes
into the set for an item and its name. -/
structure Scan (α ν β : Type) where
  name? : α → Option ν
  value? : ν → Option β
  key : α → ν → ν

namespace Scan

variable {α ν β : Type} (c : Scan α ν β)

/-- The loop with the right key. -/
def exact : Scan α ν β := { c with key := fun _ n => n }

/-- The item has a name with a value. -/
def valued (a : α) : Bool := ((c.name? a).bind c.value?).isSome

/-- The names with values. -/
def names (as : List α) : List ν := (as.filter c.valued).filterMap c.name?

variable {c} {a : α} {as before : List α} {n : ν} {seen seen' : List ν}

theorem valued_of_none (h : c.name? a = none) : c.valued a = false := by simp [valued, h]

theorem valued_of_some (h : c.name? a = some n) : c.valued a = (c.value? n).isSome := by
    simp [valued, h]

/-! ## Keys and names -/

/-- The item is the first with its name, and the name has a value. -/
def First (c : Scan α ν β) (before : List α) (a : α) : Prop :=
  c.valued a = true ∧ c.name? a ∉ before.map c.name?

/-- A key of the items that come first with their names. -/
def Marks (c : Scan α ν β) (before : List α) (n : ν) : Prop :=
  ∃ before' a after', before = before' ++ a :: after' ∧ c.First before' a ∧
    (c.name? a).map (c.key a) = some n

/-- The name has a value and came before. -/
def Repeats (c : Scan α ν β) (before : List α) (n : ν) : Prop :=
  (c.value? n).isSome = true ∧ some n ∈ before.map c.name?

/-- From an item on, the keys of the items before it say of each name whether
it came before. -/
def FaithfulFrom (c : Scan α ν β) (before as : List α) : Prop :=
  ∀ before' a after n, as = before' ++ a :: after → c.name? a = some n →
    (c.Marks (before ++ before') n ↔ c.Repeats (before ++ before') n)

/-- The keys do what the names would do. -/
def Faithful (c : Scan α ν β) (as : List α) : Prop := c.FaithfulFrom [] as

/-- No two names of the items have one value. -/
def Injective (c : Scan α ν β) (as : List α) : Prop :=
  ∀ a ∈ as, ∀ b ∈ as, ∀ n m v, c.name? a = some n → c.name? b = some m → c.value? n = some v →
    c.value? m = some v → n = m

theorem marks_snoc : c.Marks (before ++ [a]) n ↔
    c.Marks before n ∨ c.First before a ∧ (c.name? a).map (c.key a) = some n := by
  constructor
  · rintro ⟨before', b, after', heq, hfirst, hkey⟩
    rcases List.eq_nil_or_concat after' with rfl | ⟨after'', d, rfl⟩
    · obtain ⟨rfl, hb⟩ := List.append_inj' heq rfl
      cases hb
      exact .inr ⟨hfirst, hkey⟩
    · rw [List.concat_eq_append, ← List.cons_append, ← List.append_assoc] at heq
      exact .inl ⟨before', b, after'', (List.append_inj' heq rfl).1, hfirst, hkey⟩
  · rintro (⟨before', b, after', rfl, hfirst, hkey⟩ | ⟨hfirst, hkey⟩)
    · exact ⟨before', b, after' ++ [a], by simp, hfirst, hkey⟩
    · exact ⟨before, a, [], rfl, hfirst, hkey⟩

theorem repeats_snoc : c.Repeats (before ++ [a]) n ↔
    c.Repeats before n ∨ (c.value? n).isSome = true ∧ c.name? a = some n := by
  rw [Repeats, Repeats, List.map_append, List.mem_append, and_or_left, List.map_singleton,
    List.mem_singleton, eq_comm (b := c.name? a)]

theorem faithfulFrom_cons : c.FaithfulFrom before (a :: as) ↔
    (∀ n, c.name? a = some n → (c.Marks before n ↔ c.Repeats before n)) ∧
      c.FaithfulFrom (before ++ [a]) as := by
  constructor
  · intro h
    refine ⟨fun n hn => by simpa using h [] a as n rfl hn, fun before' b after n heq hn => ?_⟩
    simpa using h (a :: before') b after n (by rw [heq]; rfl) hn
  · rintro ⟨h, hrest⟩ before' b after n heq hn
    cases before' with
    | nil =>
      cases heq
      simpa using h n hn
    | cons d before' =>
      cases heq
      simpa using hrest before' b after n rfl hn

/-- The sets of a loop and of the right one, after the items `before`. -/
structure Sets (c : Scan α ν β) (before : List α) (seen seen' : List ν) : Prop where
  marks (n : ν) : n ∈ seen ↔ c.Marks before n
  repeats (n : ν) : n ∈ seen' ↔ c.Repeats before n

namespace Sets

theorem start : c.Sets [] [] [] where
  marks n := by simp [Marks]
  repeats n := by simp [Repeats]

/-- The item adds nothing: it has no name with a value, or not a new one. -/
theorem skip (h : c.Sets before seen seen')
    (ha : ∀ n, c.name? a = some n → (c.value? n).isSome = true → n ∈ seen') :
    c.Sets (before ++ [a]) seen seen' where
  marks n := by
    rw [marks_snoc, h.marks]
    refine (or_iff_left ?_).symm
    rintro ⟨⟨hv, hfirst⟩, hkey⟩
    obtain ⟨m, hm, -⟩ := Option.map_eq_some_iff.mp hkey
    rw [valued_of_some hm] at hv
    exact hfirst (hm ▸ ((h.repeats m).mp (ha m hm hv)).2)
  repeats n := by
    rw [repeats_snoc, h.repeats]
    exact (or_iff_left_of_imp fun hn => (h.repeats n).mp (ha n hn.2 hn.1)).symm

theorem add (h : c.Sets before seen seen') {v : β} (hname : c.name? a = some n)
    (hv : c.value? n = some v)
    (hn : n ∉ seen') : c.Sets (before ++ [a]) (c.key a n :: seen) (n :: seen') where
  marks m := by
    have hfirst : c.First before a :=
      ⟨by simp [valued_of_some hname,
        hv], fun hm => hn ((h.repeats n).mpr ⟨by simp [hv], hname ▸ hm⟩)⟩
    rw [marks_snoc, List.mem_cons, h.marks, or_comm]
    simp [hfirst, hname, eq_comm]
  repeats m := by
    rw [repeats_snoc, List.mem_cons, h.repeats, or_comm, hname]
    refine or_congr_right ⟨?_, fun hm => (Option.some.inj hm.2).symm⟩
    rintro rfl
    exact ⟨by simp [hv], rfl⟩

end Sets

/-! ## The loop -/

variable [DecidableEq ν]

/-- The values the loop collects. -/
def values (c : Scan α ν β) : List α → List ν → List β
  | [], _ => []
  | a :: as, seen => match c.name? a with
    | none => values c as seen
    | some n =>
      if n ∈ seen then values c as seen
      else match c.value? n with
        | none => values c as seen
        | some v => v :: values c as (c.key a n :: seen)

/-- The items the loop keeps: those whose names are in the set or have a
value. -/
def kept (c : Scan α ν β) : List α → List ν → List α
  | [], _ => []
  | a :: as, seen => match c.name? a with
    | none => kept c as seen
    | some n =>
      if n ∈ seen then a :: kept c as seen
      else match c.value? n with
        | none => kept c as seen
        | some _ => a :: kept c as (c.key a n :: seen)

theorem values_none (h : c.name? a = none) : c.values (a :: as) seen = c.values as seen := by
    simp [values, h]

theorem kept_none (h : c.name? a = none) : c.kept (a :: as) seen = c.kept as seen := by
    simp [kept, h]

theorem values_seen (h : c.name? a = some n)
    (hn : n ∈ seen) : c.values (a :: as) seen = c.values as seen := by
  simp [values, h, hn]

theorem kept_seen (h : c.name? a = some n)
    (hn : n ∈ seen) : c.kept (a :: as) seen = a :: c.kept as seen := by
  simp [kept, h, hn]

theorem values_bad (h : c.name? a = some n) (hn : n ∉ seen) (hv : c.value? n = none) :
    c.values (a :: as) seen = c.values as seen := by simp [values, h, hn, hv]

theorem kept_bad (h : c.name? a = some n) (hn : n ∉ seen) (hv : c.value? n = none) :
    c.kept (a :: as) seen = c.kept as seen := by simp [kept, h, hn, hv]

theorem values_new {v : β} (h : c.name? a = some n) (hn : n ∉ seen) (hv : c.value? n = some v) :
    c.values (a :: as) seen = v :: c.values as (c.key a n :: seen) := by simp [values, h, hn, hv]

theorem kept_new {v : β} (h : c.name? a = some n) (hn : n ∉ seen) (hv : c.value? n = some v) :
    c.kept (a :: as) seen = a :: c.kept as (c.key a n :: seen) := by simp [kept, h, hn, hv]

/-- Every item with a value is kept. -/
theorem length_filter_le_kept (as : List α)
    (seen : List ν) : (as.filter c.valued).length ≤ (c.kept as seen).length := by
  induction as generalizing seen with
  | nil => exact Nat.le_refl 0
  | cons a as ih =>
    cases hname : c.name? a with
    | none =>
      rw [List.filter_cons_of_neg (by simp [valued_of_none hname]), kept_none hname]
      exact ih seen
    | some n =>
      by_cases hn : n ∈ seen
      · rw [kept_seen hname hn, List.length_cons]
        refine Nat.le_trans ?_ (Nat.succ_le_succ (ih seen))
        rw [List.filter_cons]
        split <;> simp
      cases hv : c.value? n with
      | none =>
        rw [List.filter_cons_of_neg (by simp [valued_of_some hname, hv]), kept_bad hname hn hv]
        exact ih seen
      | some v =>
        rw [List.filter_cons_of_pos (by simp [valued_of_some hname, hv]), kept_new hname hn hv]
        exact Nat.succ_le_succ (ih _)

/-- A value is collected for a name that is not in the set. -/
theorem mem_values {v : β} (h : v ∈ c.values as seen) :
    ∃ a ∈ as, ∃ n, c.name? a = some n ∧ n ∉ seen ∧ c.value? n = some v := by
  induction as generalizing seen with
  | nil => cases h
  | cons a as ih =>
    have later {s : List ν} (hs : seen ⊆ s) (h : v ∈ c.values as s) :
        ∃ b ∈ a :: as, ∃ n, c.name? b = some n ∧ n ∉ seen ∧ c.value? n = some v := by
      obtain ⟨b, hb, n, hname, hn, hv⟩ := ih h
      exact ⟨b, List.mem_cons_of_mem _ hb, n, hname, fun hm => hn (hs hm), hv⟩
    cases hname : c.name? a with
    | none =>
      rw [values_none hname] at h
      exact later (List.Subset.refl _) h
    | some n =>
      by_cases hn : n ∈ seen
      · rw [values_seen hname hn] at h
        exact later (List.Subset.refl _) h
      cases hv : c.value? n with
      | none =>
        rw [values_bad hname hn hv] at h
        exact later (List.Subset.refl _) h
      | some w =>
        rw [values_new hname hn hv] at h
        rcases List.mem_cons.mp h with rfl | h
        · exact ⟨a, List.mem_cons_self, n, hname, hn, hv⟩
        · exact later (List.subset_cons_self _ _) h

/-- Something is collected, and kept, just if an item has a value. -/
theorem values_ne_nil : c.values as [] ≠ [] ↔ ∃ a ∈ as, c.valued a = true := by
  induction as with
  | nil => simp [values]
  | cons a as ih =>
    simp only [List.mem_cons, exists_eq_or_imp]
    cases hname : c.name? a with
    | none => rw [values_none hname, ih, valued_of_none hname]; simp
    | some n =>
      cases hv : c.value? n with
      | none => rw [values_bad hname List.not_mem_nil hv, ih, valued_of_some hname, hv]; simp
      | some v => rw [values_new hname List.not_mem_nil hv, valued_of_some hname, hv]; simp

theorem kept_ne_nil : c.kept as [] ≠ [] ↔ ∃ a ∈ as, c.valued a = true := by
  induction as with
  | nil => simp [kept]
  | cons a as ih =>
    simp only [List.mem_cons, exists_eq_or_imp]
    cases hname : c.name? a with
    | none => rw [kept_none hname, ih, valued_of_none hname]; simp
    | some n =>
      cases hv : c.value? n with
      | none => rw [kept_bad hname List.not_mem_nil hv, ih, valued_of_some hname, hv]; simp
      | some v => rw [kept_new hname List.not_mem_nil hv, valued_of_some hname, hv]; simp

/-! ## The loop with the right key -/

theorem kept_exact_of_seen (hseen : ∀ n ∈ seen, (c.value? n).isSome = true) :
    c.exact.kept as seen = as.filter c.valued := by
  induction as generalizing seen with
  | nil => rfl
  | cons a as ih =>
    cases hname : c.name? a with
    | none =>
      rw [List.filter_cons_of_neg (by simp [valued_of_none hname]), kept_none (c := c.exact) hname]
      exact ih hseen
    | some n =>
      by_cases hn : n ∈ seen
      · rw [List.filter_cons_of_pos (by rw [valued_of_some hname]; exact hseen n hn),
          kept_seen (c := c.exact) hname hn, ih hseen]
      cases hv : c.value? n with
      | none =>
        rw [List.filter_cons_of_neg (by simp [valued_of_some hname, hv]),
          kept_bad (c := c.exact) hname hn hv]
        exact ih hseen
      | some v =>
        rw [List.filter_cons_of_pos (by simp [valued_of_some hname, hv]),
          kept_new (c := c.exact) hname hn hv, ih]
        exact List.forall_mem_cons.mpr ⟨by simp [exact, hv], hseen⟩

/-- The right loop keeps the items with values. -/
theorem kept_exact (as : List α) : c.exact.kept as [] = as.filter c.valued :=
  kept_exact_of_seen (by simp)

theorem values_exact_of_seen :
    c.exact.values as seen = ((c.names as).filter (· ∉ seen)).eraseDups.filterMap c.value? := by
  induction as generalizing seen with
  | nil => rfl
  | cons a as ih =>
    cases hname : c.name? a with
    | none =>
      rw [values_none (c := c.exact) hname, ih, names, names,
        List.filter_cons_of_neg (by simp [valued_of_none hname])]
    | some n =>
      by_cases hn : n ∈ seen
      · rw [values_seen (c := c.exact) hname hn, ih, names, names, List.filter_cons]
        split
        · rw [List.filterMap_cons_some hname, List.filter_cons_of_neg (by simpa using hn)]
        · rfl
      cases hv : c.value? n with
      | none =>
        rw [values_bad (c := c.exact) hname hn hv, ih, names, names,
          List.filter_cons_of_neg (by simp [valued_of_some hname, hv])]
      | some v =>
        have hnames : c.names (a :: as) = n :: c.names as := by
          rw [names, List.filter_cons_of_pos (by simp [valued_of_some hname, hv]),
            List.filterMap_cons_some hname]
          rfl
        rw [values_new (c := c.exact) hname hn hv, ih, hnames,
          List.filter_cons_of_pos (by simpa using hn), List.eraseDups_cons,
          List.filterMap_cons_some hv, List.filter_filter]
        refine congrArg (fun l => v :: (List.eraseDups l).filterMap c.value?)
          (List.filter_congr fun m _ => ?_)
        rw [Bool.eq_iff_iff]
        simp [exact]

/-- The right loop collects the value of each name once, in the order in which
they come first. -/
theorem values_exact (as : List α) :
    c.exact.values as [] = (c.names as).eraseDups.filterMap c.value? := by
  rw [values_exact_of_seen]
  simp

/-! ## The loop with another key -/

/-- Where the keys do what the names would do, the loop does what the right one
does. -/
theorem values_kept_eq_of_sets (hs : c.Sets before seen seen') (hf : c.FaithfulFrom before as) :
    c.values as seen = c.exact.values as seen' ∧ c.kept as seen = c.exact.kept as seen' := by
  induction as generalizing before seen seen' with
  | nil => exact ⟨rfl, rfl⟩
  | cons a as ih =>
    obtain ⟨ha, hf⟩ := faithfulFrom_cons.mp hf
    cases hname : c.name? a with
    | none =>
      rw [values_none hname, kept_none hname, values_none (c := c.exact) hname,
        kept_none (c := c.exact) hname]
      exact ih (hs.skip fun n hn => by simp [hname] at hn) hf
    | some n =>
      have hn : n ∈ seen ↔ n ∈ seen' := by rw [hs.marks, hs.repeats, ha n hname]
      by_cases hm : n ∈ seen'
      · rw [values_seen hname (hn.mpr hm), kept_seen hname (hn.mpr hm),
          values_seen (c := c.exact) hname hm, kept_seen (c := c.exact) hname hm]
        have hrest := ih (hs.skip fun m hm' _ => Option.some.inj (hname.symm.trans hm') ▸ hm) hf
        exact ⟨hrest.1, congrArg (a :: ·) hrest.2⟩
      cases hv : c.value? n with
      | none =>
        rw [values_bad hname (hn.not.mpr hm) hv, kept_bad hname (hn.not.mpr hm) hv,
          values_bad (c := c.exact) hname hm hv, kept_bad (c := c.exact) hname hm hv]
        exact ih (hs.skip fun m hm' hv' => by
          obtain rfl := Option.some.inj (hname.symm.trans hm')
          simp [hv] at hv') hf
      | some v =>
        rw [values_new hname (hn.not.mpr hm) hv, kept_new hname (hn.not.mpr hm) hv,
          values_new (c := c.exact) hname hm hv, kept_new (c := c.exact) hname hm hv]
        have hrest := ih (hs.add hname hv hm) hf
        exact ⟨congrArg (v :: ·) hrest.1, congrArg (a :: ·) hrest.2⟩

theorem values_kept_eq (h : c.Faithful as) :
    c.values as [] = c.exact.values as [] ∧ c.kept as [] = c.exact.kept as [] :=
  values_kept_eq_of_sets .start h

/-- A name that is in the set is not evaluated any more, so its value does not
come up if it has no other name. -/
theorem value_not_mem {n : ν} {v : β} (hinj : c.Injective (before ++ a :: as))
    (hname : c.name? a = some n)
    (hv : c.value? n = some v) (hm : n ∈ seen) : v ∉ c.values as seen := by
  intro hmem
  obtain ⟨b, hb, m, hbm, hmn, hbv⟩ := mem_values hmem
  have ha : a ∈ before ++ a :: as := List.mem_append_right _ List.mem_cons_self
  have hb : b ∈ before ++ a :: as := List.mem_append_right _ (List.mem_cons_of_mem _ hb)
  exact hmn (hinj a ha b hb n m v hname hbm hv hbv ▸ hm)

/-- Where both loops return the same, they agree about the first name. -/
theorem mem_seen_iff_of_eq {n : ν} (hs : c.Sets before seen seen')
    (hinj : c.Injective (before ++ a :: as))
    (hvalues : c.values (a :: as) seen = c.exact.values (a :: as) seen')
    (hkept : (c.kept (a :: as) seen).length = ((a :: as).filter c.valued).length)
    (hname : c.name? a = some n) : n ∈ seen ↔ n ∈ seen' := by
  cases hv : c.value? n with
  | none =>
    -- it is in neither set: the loop would keep more than there is to keep
    refine iff_of_false (fun hm => ?_) fun hm' => by simpa [hv] using ((hs.repeats n).mp hm').1
    rw [kept_seen hname hm, List.filter_cons_of_neg (by simp [valued_of_some hname, hv]),
      List.length_cons] at hkept
    have hle := c.length_filter_le_kept as seen
    omega
  | some v =>
    by_cases hm : n ∈ seen <;> by_cases hm' : n ∈ seen'
    · exact iff_of_true hm hm'
    · rw [values_seen hname hm, values_new (c := c.exact) hname hm' hv] at hvalues
      exact absurd (hvalues ▸ List.mem_cons_self) (value_not_mem hinj hname hv hm)
    · rw [values_new hname hm hv, values_seen (c := c.exact) hname hm'] at hvalues
      exact absurd (hvalues ▸ List.mem_cons_self) (value_not_mem (c := c.exact) hinj hname hv hm')
    · exact iff_of_false hm hm'

/-- The converse, where no two names have one value. The set of the loop only
grows, so a name that is passed over in the wrong place is never evaluated, and
nothing else has its value. -/
theorem faithfulFrom_of_eq (hs : c.Sets before seen seen') (hinj : c.Injective (before ++ as))
    (hvalues : c.values as seen = c.exact.values as seen')
    (hkept : (c.kept as seen).length = (as.filter c.valued).length) : c.FaithfulFrom before as := by
  induction as generalizing before seen seen' with
  | nil => exact fun before' _ _ _ heq => by simp at heq
  | cons a as ih =>
    have hinj' : c.Injective ((before ++ [a]) ++ as) := by simpa using hinj
    rw [faithfulFrom_cons]
    cases hname : c.name? a with
    | none =>
      rw [values_none hname, values_none (c := c.exact) hname] at hvalues
      rw [kept_none hname, List.filter_cons_of_neg (by simp [valued_of_none hname])] at hkept
      exact ⟨by simp, ih (hs.skip fun n hn => by simp [hname] at hn) hinj' hvalues hkept⟩
    | some n =>
      have hiff := mem_seen_iff_of_eq hs hinj hvalues hkept hname
      refine ⟨fun m hm => ?_, ?_⟩
      · rw [← Option.some.inj hm, ← hs.marks, ← hs.repeats, hiff]
      by_cases hm' : n ∈ seen'
      · have hm := hiff.mpr hm'
        have hv : (c.value? n).isSome = true := ((hs.repeats n).mp hm').1
        rw [values_seen hname hm, values_seen (c := c.exact) hname hm'] at hvalues
        rw [kept_seen hname hm, List.filter_cons_of_pos (by simp [valued_of_some hname, hv])]
          at hkept
        exact ih (hs.skip fun m hm₁ _ => Option.some.inj (hname.symm.trans hm₁) ▸ hm') hinj' hvalues
          (Nat.succ.inj hkept)
      have hm := hiff.not.mpr hm'
      cases hv : c.value? n with
      | none =>
        rw [values_bad hname hm hv, values_bad (c := c.exact) hname hm' hv] at hvalues
        rw [kept_bad hname hm hv, List.filter_cons_of_neg (by simp [valued_of_some hname, hv])]
          at hkept
        exact ih (hs.skip fun m hm₁ hv' => by
          obtain rfl := Option.some.inj (hname.symm.trans hm₁)
          simp [hv] at hv') hinj' hvalues hkept
      | some v =>
        rw [values_new hname hm hv, values_new (c := c.exact) hname hm' hv] at hvalues
        rw [kept_new hname hm hv, List.filter_cons_of_pos (by simp [valued_of_some hname, hv])]
          at hkept
        exact ih (hs.add hname hv hm') hinj' (List.cons.inj hvalues).2 (Nat.succ.inj hkept)

theorem faithful_of_eq (hinj : c.Injective as) (hvalues : c.values as [] = c.exact.values as [])
    (hkept : (c.kept as []).length = (as.filter c.valued).length) : c.Faithful as :=
  faithfulFrom_of_eq .start hinj hvalues hkept

end Scan

end PlatformRelayer
