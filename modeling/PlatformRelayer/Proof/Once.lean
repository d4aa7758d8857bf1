import PlatformRelayer.Bridges.Once

/-!
# The entries and calls of a `OnceWithKey`

What each entry and each call of a run of `OnceWithKey` have to do with its history
is kept by every step (`Inv.step`), one lemma for each of its parts. So an entry is
started and finished at most once, the map has the entry that was made last for a
key, and a call that found an entry found one that was not timed out.
-/

namespace PlatformRelayer

/-- How often the action has been started. -/
def OnceValues.starts {T : Type} : OnceValues T → Nat
  | .notStarted => 0
  | .running _ => 1
  | .done _ => 1

/-- How often the action has returned. -/
def OnceValues.finishes {T : Type} : OnceValues T → Nat
  | .notStarted => 0
  | .running _ => 0
  | .done _ => 1

/-- The action has returned an error. -/
def OnceValues.failed {T : Type} : OnceValues T → Bool
  | .done outcome => outcome.err.isSome
  | _ => false

namespace OnceWithKey

variable {K T : Type}

/-! ## Histories -/

def Event.call : Event K T → Nat
  | .called i _ => i
  | .found i _ => i
  | .created i _ _ _ => i
  | .started i _ => i
  | .finished i _ _ => i
  | .joined i _ => i
  | .recorded i _ _ => i
  | .returned i _ _ _ _ _ => i

/-- The entry that is made or changed. -/
def Event.changes : Event K T → Option Nat
  | .created i _ _ _ => some i
  | .started _ j => some j
  | .finished _ j _ => some j
  | .recorded _ j _ => some j
  | _ => none

def Event.starts (entry : Nat) : Event K T → Bool
  | .started _ j => j == entry
  | _ => false

def Event.finishes (entry : Nat) : Event K T → Bool
  | .finished _ j _ => j == entry
  | _ => false

def Event.createsFor [DecidableEq K] (key : K) : Event K T → Option Nat
  | .created i made _ _ => if made.key = key then some i else none
  | _ => none

/-- The entry that was made last for a key. -/
def latest [DecidableEq K] (key : K) (h : List (Event K T)) : Option Nat :=
  h.findSome? (Event.createsFor key)

/-- A call has made the entry. -/
def Created (h : List (Event K T)) (entry : Nat) : Prop :=
  ∃ made errorNow successNow, .created entry made errorNow successNow ∈ h

/-- A call has recorded an error in the entry. -/
def Recorded (h : List (Event K T)) (entry : Nat) : Prop := ∃ i err, .recorded i entry err ∈ h

theorem exists_created_of_latest [DecidableEq K] {h : List (Event K T)} {key : K} {j : Nat}
    (hj : latest key h = some j) :
    ∃ made errorNow successNow, .created j made errorNow successNow ∈ h ∧ made.key = key := by
  obtain ⟨e, he, hfor⟩ := List.exists_of_findSome?_eq_some hj
  cases e with
  | created i made errorNow successNow =>
    rw [Event.createsFor, Option.ite_none_right_eq_some, Option.some.injEq] at hfor
    obtain ⟨hkey, rfl⟩ := hfor
    exact ⟨made, errorNow, successNow, he, hkey⟩
  | _ => cases hfor

/-! ## Entries -/

/-- What the history says of an entry. -/
structure EntryOk (o : OnceWithKey) (h : List (Event K T)) (j : Nat)
    (entry : OnceWithTimeout T) : Prop where
  created {made : Made K} {errorNow successNow : Time} : .created j made errorNow successNow ∈ h →
    errorNow ≤ successNow ∧ entry.errorTimeout = errorNow + o.errorTimeout ∧
      entry.successTimeout = successNow + o.successTimeout
  untouched : ¬Created h j → entry.once = .notStarted ∧ entry.err = none
  starts : h.countP (Event.starts j) = entry.once.starts
  finishes : h.countP (Event.finishes j) = entry.once.finishes
  done (outcome : Outcome T) : entry.once = .done outcome ↔ ∃ i, .finished i j outcome ∈ h
  recorded : entry.err ≠ none ↔ Recorded h j
  failed : entry.err ≠ none → ∃ outcome, entry.once = .done outcome ∧ outcome.err ≠ none

variable {o : OnceWithKey} {h : List (Event K T)} {e : Event K T} {i j : Nat}
  {entry : OnceWithTimeout T}

theorem Created.later (hj : Created h j) (h' : List (Event K T)) : Created (h' ++ h) j := by
  obtain ⟨made, errorNow, successNow, hm⟩ := hj
  exact ⟨made, errorNow, successNow, List.mem_append_right _ hm⟩

theorem Recorded.later (hr : Recorded h j) (h' : List (Event K T)) : Recorded (h' ++ h) j := by
  obtain ⟨i, err, hm⟩ := hr
  exact ⟨i, err, List.mem_append_right _ hm⟩

/-- A step that does not change the entry. -/
theorem EntryOk.cons (hj : EntryOk o h j entry)
    (he : e.changes ≠ some j) : EntryOk o (e :: h) j entry where
  created hm := by
    rcases List.mem_cons.mp hm with rfl | hm
    · exact absurd rfl he
    · exact hj.created hm
  untouched hn := hj.untouched fun hc => hn (hc.later [e])
  starts := by
    have hs : e.starts j = false := by
      cases e <;> simp_all [Event.starts, Event.changes]
    rw [List.countP_cons_of_neg (by simp [hs]), hj.starts]
  finishes := by
    have hs : e.finishes j = false := by
      cases e <;> simp_all [Event.finishes, Event.changes]
    rw [List.countP_cons_of_neg (by simp [hs]), hj.finishes]
  done outcome := by
    have hs : ∀ i, Event.finished i j outcome ≠ e := by
      rintro i rfl
      exact he rfl
    simp [hj.done, hs]
  recorded := by
    have hs : ∀ i err, Event.recorded i j err ≠ e := by
      rintro i err rfl
      exact he rfl
    simp [hj.recorded, Recorded, hs]
  failed := hj.failed

/-- A new entry. -/
theorem EntryOk.create (hj : EntryOk o h j entry) (hn : ¬Created h j) (made : Made K)
    {errorNow successNow : Time}
    (hle : errorNow ≤ successNow) : EntryOk o (.created j made errorNow successNow :: h) j
      (newOnceWithTimeout o.successTimeout o.errorTimeout errorNow successNow) where
  created hm := by
    rcases List.mem_cons.mp hm with heq | hm
    · cases heq
      exact ⟨hle, rfl, rfl⟩
    · exact absurd ⟨_, _, _, hm⟩ hn
  untouched hn := absurd ⟨_, _, _, List.mem_cons_self⟩ hn
  starts := by
    rw [List.countP_cons_of_neg (by simp [Event.starts]), hj.starts, (hj.untouched hn).1]
    rfl
  finishes := by
    rw [List.countP_cons_of_neg (by simp [Event.finishes]), hj.finishes, (hj.untouched hn).1]
    rfl
  done outcome := by
    have hd := hj.done outcome
    rw [(hj.untouched hn).1] at hd
    simpa [newOnceWithTimeout] using hd
  recorded := by
    have hr := hj.recorded
    rw [(hj.untouched hn).2] at hr
    simpa [newOnceWithTimeout, Recorded] using hr
  failed hne := absurd rfl hne

/-- The action of the entry is started. -/
theorem EntryOk.start (hj : EntryOk o h j entry) (hc : Created h j)
    (honce : entry.once = .notStarted) (i : Nat) :
    EntryOk o (.started i j :: h) j { entry with once := .running i } where
  created hm := hj.created (by simpa using hm)
  untouched hn := absurd (hc.later [_]) hn
  starts := by
    rw [List.countP_cons_of_pos (by simp [Event.starts]), hj.starts, honce]
    rfl
  finishes := by
    rw [List.countP_cons_of_neg (by simp [Event.finishes]), hj.finishes, honce]
    rfl
  done outcome := by
    have hd := hj.done outcome
    rw [honce] at hd
    simpa using hd
  recorded := by simpa [Recorded] using hj.recorded
  failed hne := by
    obtain ⟨outcome, hd, -⟩ := hj.failed hne
    rw [honce] at hd
    cases hd

/-- The action of the entry returns. -/
theorem EntryOk.finish (hj : EntryOk o h j entry) (hc : Created h j)
    (honce : entry.once = .running i)
    (outcome : Outcome T) :
    EntryOk o (.finished i j outcome :: h) j { entry with once := .done outcome } where
  created hm := hj.created (by simpa using hm)
  untouched hn := absurd (hc.later [_]) hn
  starts := by
    rw [List.countP_cons_of_neg (by simp [Event.starts]), hj.starts, honce]
    rfl
  finishes := by
    rw [List.countP_cons_of_pos (by simp [Event.finishes]), hj.finishes, honce]
    rfl
  done outcome' := by
    have hd := hj.done outcome'
    rw [honce] at hd
    have hn : ∀ i, Event.finished i j outcome' ∉ h := by simpa using hd
    simp [hn, eq_comm]
  recorded := by simpa [Recorded] using hj.recorded
  failed hne := by
    obtain ⟨outcome, hd, -⟩ := hj.failed hne
    rw [honce] at hd
    cases hd

/-- The error of the action is recorded in the entry. -/
theorem EntryOk.record (hj : EntryOk o h j entry) (hc : Created h j) {outcome : Outcome T}
    {err : Err} (honce : entry.once = .done outcome) (herr : outcome.err = some err) (i : Nat) :
    EntryOk o (.recorded i j err :: h) j (entry.setError err) where
  created hm := hj.created (by simpa using hm)
  untouched hn := absurd (hc.later [_]) hn
  starts := by
    rw [List.countP_cons_of_neg (by simp [Event.starts]), hj.starts]
    rfl
  finishes := by
    rw [List.countP_cons_of_neg (by simp [Event.finishes]), hj.finishes]
    rfl
  done outcome' := by simpa [OnceWithTimeout.setError] using hj.done outcome'
  recorded := iff_of_true (by simp [OnceWithTimeout.setError]) ⟨i, err, List.mem_cons_self⟩
  failed _ := ⟨outcome, honce, by simp [herr]⟩

theorem EntryOk.failed_eq_true (hj : EntryOk o h j entry)
    (hr : Recorded h j) : entry.once.failed = true := by
  obtain ⟨outcome, honce, herr⟩ := hj.failed (hj.recorded.mpr hr)
  rw [honce]
  exact Option.isSome_iff_ne_none.mpr herr

/-! ## Calls -/

/-- What a call was made with. -/
def Phase.made : Phase K T → Option (Made K)
  | .notCalled => none
  | .called made => some made
  | .holding made _ => some made
  | .running made _ => some made
  | .got made _ _ _ => some made
  | .returned made => some made

/-- The entry was made for the call's key. When the call was made, the entry was
not timed out as a success, unless an error was recorded in it, and not even then if
an error is not kept for longer than a success. -/
structure Uses (o : OnceWithKey) (h : List (Event K T)) (made : Made K) (j : Nat)
    (entry : OnceWithTimeout T) : Prop where
  created : ∃ made' errorNow successNow, made'.key = made.key ∧
    .created j made' errorNow successNow ∈ h
  fresh : 0 < o.successTimeout → made.time < entry.successTimeout ∨ entry.err ≠ none
  recent : 0 < o.successTimeout → o.errorTimeout ≤ o.successTimeout →
    made.time < entry.successTimeout

/-- What the history and the entries say of a call. -/
def CallOk (o : OnceWithKey) (h : List (Event K T)) (entries : Nat → OnceWithTimeout T)
    (i : Nat) : Phase K T → Prop
  | .notCalled => ¬Created h i
  | .called _ => ¬Created h i
  | .holding made j => Uses o h made j (entries j)
  | .running made j => Uses o h made j (entries j) ∧ (entries j).once = .running i
  | .got made j outcome unrecorded => Uses o h made j (entries j) ∧
  (entries j).once = .done outcome ∧
      ∀ err, unrecorded = some err → outcome.err = some err
  | .returned made => ∃ j outcome errorNow successNow,
  .returned i made j outcome errorNow successNow ∈ h

/-- What a step of call `i` keeps of an entry. -/
structure Advances (i : Nat) (entry entry' : OnceWithTimeout T) : Prop where
  successTimeout : entry'.successTimeout = entry.successTimeout
  err : entry.err ≠ none → entry'.err ≠ none
  running {r : Nat} : r ≠ i → entry.once = .running r → entry'.once = .running r
  done {outcome : Outcome T} : entry.once = .done outcome → entry'.once = .done outcome

theorem Advances.refl (i : Nat) (entry : OnceWithTimeout T) : Advances i entry entry :=
  ⟨rfl, id, fun _ => id, id⟩

variable {made : Made K} {entries entries' : Nat → OnceWithTimeout T} {entry' : OnceWithTimeout T}

theorem Uses.isCreated (hu : Uses o h made j entry) : Created h j := by
  obtain ⟨made', errorNow, successNow, -, hm⟩ := hu.created
  exact ⟨made', errorNow, successNow, hm⟩

theorem Uses.later (hu : Uses o h made j entry) (hadv : Advances i entry entry') (e : Event K T) :
    Uses o (e :: h) made j entry' where
  created := by
    obtain ⟨made', errorNow, successNow, hkey, hm⟩ := hu.created
    exact ⟨made', errorNow, successNow, hkey, List.mem_cons_of_mem _ hm⟩
  fresh hpos := by
    rw [hadv.successTimeout]
    exact (hu.fresh hpos).imp_right hadv.err
  recent hpos hle := hadv.successTimeout ▸ hu.recent hpos hle

/-- A call that another one's step leaves where it is. -/
theorem CallOk.later {phase : Phase K T} (hc : CallOk o h entries i phase) (hi : i ≠ e.call)
    (hadv : ∀ j, Created h j → Advances e.call (entries j) (entries' j)) :
    CallOk o (e :: h) entries' i phase := by
  have hn : ¬Created h i → ¬Created (e :: h) i := by
    rintro hn ⟨made, errorNow, successNow, hm⟩
    rcases List.mem_cons.mp hm with rfl | hm
    · exact hi rfl
    · exact hn ⟨made, errorNow, successNow, hm⟩
  cases phase with
  | notCalled => exact hn hc
  | called made => exact hn hc
  | holding made j => exact Uses.later hc (hadv j (Uses.isCreated hc)) e
  | running made j =>
    have hj := hadv j hc.1.isCreated
    exact ⟨hc.1.later hj e, hj.running hi hc.2⟩
  | got made j outcome unrecorded =>
    have hj := hadv j hc.1.isCreated
    exact ⟨hc.1.later hj e, hj.done hc.2.1, hc.2.2⟩
  | returned made =>
    obtain ⟨j, outcome, errorNow, successNow, hm⟩ := hc
    exact ⟨j, outcome, errorNow, successNow, List.mem_cons_of_mem _ hm⟩

/-! ## Runs -/

variable [DecidableEq K] {s s' : State K T}

structure Inv (o : OnceWithKey) (h : List (Event K T)) (s : State K T) : Prop where
  onces (key : K) : s.onces (.caller key) = latest key h
  made (i : Nat) (made : Made K) : .called i made ∈ h ↔ (s.calls i).made = some made
  entries (j : Nat) : EntryOk o h j (s.entries j)
  calls (i : Nat) : CallOk o h s.entries i (s.calls i)
  runner (j r : Nat) : (s.entries j).once = .running r → ∃ made, s.calls r = .running made j

theorem Inv.call (hs : Inv o h s) {phase : Phase K T}
    (hi : s.calls i = phase) : CallOk o h s.entries i phase :=
  hi ▸ hs.calls i

theorem Inv.init (start : Time) : Inv o [] ({ now := start } : State K T) where
  onces _ := rfl
  made _ _ := by simp [Phase.made]
  entries j := by
    refine ⟨by simp, fun _ => ⟨rfl, rfl⟩, rfl, rfl, ?_, ?_, by simp [newOnceWithTimeout]⟩
    · simp [newOnceWithTimeout]
    · simp [newOnceWithTimeout, Recorded]
  calls i := by simp [CallOk, Created]
  runner _ _ hr := by simp [newOnceWithTimeout] at hr

theorem Step.calls_of_ne (hstep : Step o s e s') (hi : i ≠ e.call) : s'.calls i = s.calls i := by
  cases hstep with
  | ret => exact (calls_goTo_of_ne _ _ _ hi).trans (by rw [calls_cleanUp])
  | _ => exact calls_goTo_of_ne _ _ _ hi

theorem Step.entries_of_ne (hstep : Step o s e s')
    (hj : e.changes ≠ some j) : s'.entries j = s.entries j := by
  have hne : ∀ {k : Nat}, some k ≠ some j → j ≠ k := by
    rintro k hk rfl
    exact hk rfl
  cases hstep with
  | create | start | finish | record => exact entries_setEntry_of_ne _ _ (hne hj)
  | call | find | join => rfl
  | ret => rw [entries_goTo, entries_cleanUp]

/-- A step that changes an entry finds it as the call's place says. -/
theorem Inv.step_entries (hs : Inv o h s) (hstep : Step o s e s')
    (j : Nat) : EntryOk o (e :: h) j (s'.entries j) := by
  by_cases hj : e.changes = some j
  · cases hstep with
    | create hi _ _ _ _ _ hle =>
      cases hj
      rw [entries_goTo, entries_put, entries_setEntry_self]
      exact (hs.entries j).create (hs.call hi) _ hle
    | start hi honce =>
      cases hj
      rw [entries_goTo, entries_setOnce_self]
      exact (hs.entries j).start (hs.call hi).isCreated honce _
    | finish outcome hi =>
      cases hj
      rw [entries_goTo, entries_setOnce_self]
      exact (hs.entries j).finish (hs.call hi).1.isCreated (hs.call hi).2 outcome
    | record hi =>
      cases hj
      rw [entries_goTo, entries_setEntry_self]
      obtain ⟨hu, honce, herr⟩ := hs.call hi
      exact (hs.entries j).record hu.isCreated honce (herr _ rfl) _
    | call | find | join | ret => cases hj
  · rw [hstep.entries_of_ne hj]
    exact (hs.entries j).cons hj

theorem Inv.step_advances (hs : Inv o h s) (hstep : Step o s e s') (hj : Created h j) :
    Advances e.call (s.entries j) (s'.entries j) := by
  by_cases hc : e.changes = some j
  · cases hstep with
    | create hi =>
      cases hc
      exact absurd hj (hs.call hi)
    | start hi honce =>
      cases hc
      rw [entries_goTo, entries_setOnce_self]
      exact ⟨rfl, id, by simp [honce], by simp [honce]⟩
    | finish outcome hi =>
      cases hc
      rw [entries_goTo, entries_setOnce_self]
      refine ⟨rfl, id, fun hr honce => ?_, by simp [(hs.call hi).2]⟩
      rw [(hs.call hi).2] at honce
      cases honce
      exact absurd rfl hr
    | record hi =>
      cases hc
      rw [entries_goTo, entries_setEntry_self]
      exact ⟨rfl, by simp [OnceWithTimeout.setError], fun _ => id, id⟩
    | call | find | join | ret => cases hc
  · rw [hstep.entries_of_ne hc]
    exact .refl ..

theorem Inv.step_onces (hs : Inv o h s) (hstep : Step o s e s') (key : K) :
    s'.onces (.caller key) = latest key (e :: h) := by
  cases hstep with
  | @create i made _ _ _ _ _ =>
    by_cases hkey : made.key = key
    · subst hkey
      simp [latest, Event.createsFor]
    · have hne : MapKey.caller key ≠ .caller made.key := by simpa using Ne.symm hkey
      rw [onces_goTo, onces_put_of_ne _ _ hne, onces_setEntry, hs.onces]
      simp [latest, Event.createsFor, hkey]
  | ret =>
    rw [onces_goTo, onces_cleanUp, hs.onces]
    rfl
  | _ => exact hs.onces key

/-- Only the step that makes a call says what it is made with. -/
theorem Step.made_eq (hstep : Step o s e s') (he : ∀ made, e ≠ .called i made) :
    (s'.calls i).made = (s.calls i).made := by
  by_cases hi : i = e.call
  · cases hstep with
    | call made => exact absurd (hi ▸ rfl) (he made)
    | find hc | create hc | start hc | finish _ hc | join hc | record hc | ret hc =>
      cases hi
      simp [Event.call, hc, Phase.made]
  · rw [hstep.calls_of_ne hi]

theorem Inv.step_made (hs : Inv o h s) (hstep : Step o s e s') (i : Nat) (made : Made K) :
    .called i made ∈ e :: h ↔ (s'.calls i).made = some made := by
  by_cases he : ∃ made', e = .called i made'
  · obtain ⟨made', rfl⟩ := he
    cases hstep with
    | call _ hi =>
      have hn : ∀ made, .called i made ∉ h := by simp [hs.made, hi, Phase.made]
      simp [hn, Phase.made, eq_comm]
  · have hne : ∀ made, e ≠ .called i made := fun made' heq => he ⟨made', heq⟩
    rw [hstep.made_eq hne, ← hs.made i made]
    simp [(hne made).symm]

/-- The call that makes the step. -/
theorem Inv.step_call_self (hs : Inv o h s) (hstep : Step o s e s') :
    CallOk o (e :: h) s'.entries e.call (s'.calls e.call) := by
  have hlater : ∀ {made j}, Uses o h made j (s.entries j) → Uses o (e :: h) made j (s'.entries j) :=
    fun hu => hu.later (hs.step_advances hstep hu.isCreated) e
  cases hstep with
  | call made hc =>
    rw [Event.call, calls_goTo_self]
    have hn : ¬Created h _ := hs.call hc
    simpa [CallOk, Created] using hn
  | @find i j made errorNow successNow hc htime _ hle hfound hnot =>
    rw [Event.call, calls_goTo_self]
    obtain ⟨made', errorNow', successNow', hm, hkey⟩ :=
      exists_created_of_latest ((hs.onces made.key).symm.trans hfound)
    -- Not timed out, by the time at which the call is made.
    have hfresh : made.time < (s.entries j).successTimeout ∨ (s.entries j).err ≠ none := by
      rcases (s.entries j).of_not_isTimedOut hnot with hlt | herr
      · exact .inl (Int.lt_of_le_of_lt (Int.le_trans htime hle) hlt)
      · exact .inr herr
    refine ⟨⟨made', errorNow', successNow', hkey, List.mem_cons_of_mem _ hm⟩, fun _ => hfresh,
      fun _ horder => hfresh.elim id fun herr => ?_⟩
    obtain ⟨hnow, herror, hsuccess⟩ := (hs.entries j).created hm
    have hlt := (s.entries j).lt_of_not_isTimedOut hnot herr
    calc made.time ≤ errorNow := htime
      _ < errorNow' + o.errorTimeout := herror ▸ hlt
      _ ≤ successNow' + o.successTimeout := Int.add_le_add hnow horder
      _ = _ := hsuccess.symm
  | @create i made errorNow successNow newErrorNow newSuccessNow hc htime _ hle _ hnew hnewle =>
    rw [Event.call, calls_goTo_self]
    rw [entries_goTo, entries_put, CallOk, entries_setEntry_self]
    have hlt (hpos : 0 < o.successTimeout) : made.time < newSuccessNow + o.successTimeout := by
      calc made.time
        _ ≤ newSuccessNow := Int.le_trans htime (Int.le_trans hle (Int.le_trans hnew hnewle))
        _ < newSuccessNow + o.successTimeout := Int.lt_add_of_pos_right _ hpos
    exact ⟨⟨made, _, _, rfl, List.mem_cons_self⟩, fun hpos => .inl (hlt hpos), fun hpos _ =>
      hlt hpos⟩
  | start hc honce =>
    rw [Event.call, calls_goTo_self]
    exact ⟨hlater (hs.call hc), by simp⟩
  | finish outcome hc =>
    rw [Event.call, calls_goTo_self]
    exact ⟨hlater (hs.call hc).1, by simp, fun _ => id⟩
  | join hc honce =>
    rw [Event.call, calls_goTo_self]
    exact ⟨hlater (hs.call hc), honce, fun _ => id⟩
  | record hc =>
    rw [Event.call, calls_goTo_self]
    obtain ⟨hu, honce, -⟩ := hs.call hc
    exact ⟨hlater hu, by simpa [OnceWithTimeout.setError] using honce, by simp⟩
  | ret hc =>
    rw [Event.call, calls_goTo_self]
    exact ⟨_, _, _, _, List.mem_cons_self⟩

theorem Inv.step_calls (hs : Inv o h s) (hstep : Step o s e s') (i : Nat) :
    CallOk o (e :: h) s'.entries i (s'.calls i) := by
  by_cases hi : i = e.call
  · subst hi
    exact hs.step_call_self hstep
  · rw [hstep.calls_of_ne hi]
    exact (hs.calls i).later hi fun j hj => hs.step_advances hstep hj

theorem Inv.step_runner (hs : Inv o h s) (hstep : Step o s e s') (j r : Nat)
    (hr : (s'.entries j).once = .running r) : ∃ made, s'.calls r = .running made j := by
  by_cases hc : e.changes = some j
  · cases hstep with
    | create _ _ _ _ _ _ _ =>
      cases hc
      simp [newOnceWithTimeout] at hr
    | @start i _ made hi honce =>
      cases hc
      obtain rfl : i = r := by simpa using hr
      exact ⟨made, calls_goTo_self ..⟩
    | finish outcome hi =>
      cases hc
      simp at hr
    | record hi =>
      cases hc
      simp [OnceWithTimeout.setError, (hs.call hi).2.1] at hr
    | call | find | join | ret => cases hc
  · rw [hstep.entries_of_ne hc] at hr
    obtain ⟨made, hmade⟩ := hs.runner j r hr
    -- The only step of a call that runs an action is its end, which changes the entry.
    have hne : r ≠ e.call := by
      rintro rfl
      cases hstep with
      | finish outcome hi =>
        cases hi.symm.trans hmade
        exact hc rfl
      | call _ hi | find hi | create hi | start hi | join hi | record hi | ret hi =>
        cases hi.symm.trans hmade
    exact ⟨made, (hstep.calls_of_ne hne).trans hmade⟩

theorem Inv.step (hs : Inv o h s) (hstep : Step o s e s') : Inv o (e :: h) s' :=
  ⟨hs.step_onces hstep, hs.step_made hstep, hs.step_entries hstep, hs.step_calls hstep,
    hs.step_runner hstep⟩

theorem run_inv {start : Time} (hrun : Run o start h s) : Inv o h s :=
  hrun.invariant (Inv o) (.init start) fun _ _ _ _ hs hstep => hs.step hstep

end OnceWithKey

end PlatformRelayer
