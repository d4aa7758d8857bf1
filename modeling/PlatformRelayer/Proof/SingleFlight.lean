import PlatformRelayer.Proof.Once

/-!
# Single flight

In every history of an `OnceWithKey`, a call returns the outcome of an action that
ran once, an action is started only if the entry before it could be replaced, and a
value is fresh (`run_singleFlight`). An entry that is timed out stays in the map
until another replaces it: the key under which it is deleted is not the key under
which it is found.

To a caller all this is a delay: what it is told was so at some time after it called,
or not more than the success timeout before (`Returns.recent`). An error is no
exception, since an entry has no error until a call has recorded it.
-/

namespace PlatformRelayer

namespace OnceWithKey

variable {K T : Type} {o : OnceWithKey} {h : List (Event K T)} {e : Event K T} {i j : Nat}
  {made : Made K}

/-- An entry that was made at a time by which it may be replaced: after the success
timeout if there is no error recorded in it, and after the error timeout if there is. -/
def Replaceable (o : OnceWithKey) (createdAt : Nat → Time) (h : List (Event K T)) (j : Nat)
    (now : Time) : Prop :=
  createdAt j + o.successTimeout ≤ now ∧ ¬Recorded h j ∨ createdAt j + o.errorTimeout ≤ now ∧
    Recorded h j

/-- An error that is recorded later leaves an entry replaceable, if the error
timeout is not the longer one. -/
theorem Replaceable.later {createdAt : Nat → Time} {now : Time}
    (hr : Replaceable o createdAt h j now)
    (hle : o.errorTimeout ≤ o.successTimeout)
    (h' : List (Event K T)) : Replaceable o createdAt (h' ++ h) j now := by
  rcases hr with ⟨htime, -⟩ | ⟨htime, hr⟩
  · by_cases hr : Recorded (h' ++ h) j
    · exact .inr ⟨Int.le_trans (Int.add_le_add_left hle _) htime, hr⟩
    · exact .inl ⟨htime, hr⟩
  · exact .inr ⟨htime, hr.later h'⟩

variable [DecidableEq K] {s s' : State K T}

/-! ## No call is stuck -/

section Returns

variable {start : Time}

/-- The run can go on so that the call returns. -/
def CanReturn (o : OnceWithKey) (start : Time) (h : List (Event K T)) (i : Nat)
    (made : Made K) : Prop :=
  ∃ h' s', Run o start (h' ++ h) s' ∧ ∃ j outcome errorNow successNow,
    .returned i made j outcome errorNow successNow ∈ h' ++ h

theorem CanReturn.of_step (hc : CanReturn o start (e :: h) i made) :
    CanReturn o start h i made := by
  obtain ⟨h', s', hrun, j, outcome, errorNow, successNow, hm⟩ := hc
  rw [List.append_cons] at hrun hm
  exact ⟨h' ++ [e], s', hrun, j, outcome, errorNow, successNow, hm⟩

theorem canReturn_of_settled {outcome : Outcome T} (hrun : Run o start h s)
    (hi : s.calls i = .got made j outcome none) : CanReturn o start h i made :=
  ⟨[_], _, hrun.step _ (.ret hi (Int.le_refl s.now) (Int.le_refl s.now)), j, outcome, s.now, s.now,
    List.mem_cons_self⟩

theorem canReturn_of_got {outcome : Outcome T} {unrecorded : Option Err} (hrun : Run o start h s)
    (hi : s.calls i = .got made j outcome unrecorded) : CanReturn o start h i made := by
  cases unrecorded with
  | none => exact canReturn_of_settled hrun hi
  | some err => exact (canReturn_of_settled (hrun.step _ (.record hi)) (calls_goTo_self ..)).of_step

theorem canReturn_of_running (hrun : Run o start h s) (hi : s.calls i = .running made j)
    (outcome : Outcome T) : CanReturn o start h i made :=
  (canReturn_of_got (hrun.step _ (.finish outcome hi)) (calls_goTo_self ..)).of_step

/-- A call that waits for another one's action gets its outcome. -/
theorem canReturn_of_holding (hrun : Run o start h s) (hi : s.calls i = .holding made j)
    (outcome : Outcome T) : CanReturn o start h i made := by
  cases honce : (s.entries j).once with
  | notStarted =>
    exact (canReturn_of_running (hrun.step _ (.start hi honce)) (calls_goTo_self ..)
      outcome).of_step
  | running r =>
    obtain ⟨made', hr⟩ := (run_inv hrun).runner j r honce
    have hne : i ≠ r := by
      rintro rfl
      cases hi.symm.trans hr
    have hfinish := hrun.step _ (.finish outcome hr)
    have hdone : ((s.setOnce j (.done outcome)).entries j).once = .done outcome := by
      rw [entries_setOnce_self]
    have hjoin := hfinish.step _ (.join ((calls_goTo_of_ne _ _ _ hne).trans hi) hdone)
    exact (canReturn_of_got hjoin (calls_goTo_self ..)).of_step.of_step
  | done outcome' =>
    exact (canReturn_of_got (hrun.step _ (.join hi honce)) (calls_goTo_self ..)).of_step

theorem canReturn_of_called (hrun : Run o start h s) (hi : s.calls i = .called made)
    (outcome : Outcome T) : CanReturn o start h i made := by
  let now := max s.now made.time
  have htime : made.time ≤ now := Int.le_max_right ..
  have hnow : s.now ≤ now := Int.le_max_left ..
  by_cases hfound : ∃ j, s.onces (.caller made.key) = some j ∧
    (s.entries j).isTimedOut now now = false
  · obtain ⟨j, hj, hnot⟩ := hfound
    have hfind := hrun.step _ (.find hi htime hnow (Int.le_refl _) hj hnot)
    exact (canReturn_of_holding hfind (calls_goTo_self ..) outcome).of_step
  · have hout : ∀ j, s.onces (.caller made.key) = some j →
        (s.entries j).isTimedOut now now = true := fun j hj =>
      Bool.not_eq_false _ ▸ fun hnot => hfound ⟨j, hj, hnot⟩
    have hcreate :=
      hrun.step _ (.create hi htime hnow (Int.le_refl _) hout (Int.le_refl _) (Int.le_refl now))
    exact (canReturn_of_holding hcreate (calls_goTo_self ..) outcome).of_step

theorem run_canReturn (hrun : Run o start h s) (hm : .called i made ∈ h) (outcome : Outcome T) :
    CanReturn o start h i made := by
  have hs := run_inv hrun
  have hmade := (hs.made i made).mp hm
  cases hi : s.calls i with
  | notCalled =>
    rw [hi] at hmade
    cases hmade
  | called made' =>
    obtain rfl : made' = made := by simpa [hi, Phase.made] using hmade
    exact canReturn_of_called hrun hi outcome
  | holding made' j =>
    obtain rfl : made' = made := by simpa [hi, Phase.made] using hmade
    exact canReturn_of_holding hrun hi outcome
  | running made' j =>
    obtain rfl : made' = made := by simpa [hi, Phase.made] using hmade
    exact canReturn_of_running hrun hi outcome
  | got made' j outcome' unrecorded =>
    obtain rfl : made' = made := by simpa [hi, Phase.made] using hmade
    exact canReturn_of_got hrun hi
  | returned made' =>
    obtain rfl : made' = made := by simpa [hi, Phase.made] using hmade
    exact ⟨[], s, hrun, hs.call hi⟩

end Returns

/-! ## When an entry was made -/

/-- The reading of the clock from which the entry's time is counted: the one for
the error timeout if its action has failed. -/
def createdAt (o : OnceWithKey) (s : State K T) (j : Nat) : Time :=
  if (s.entries j).once.failed then (s.entries j).errorTimeout - o.errorTimeout
  else (s.entries j).successTimeout - o.successTimeout

section Created

variable {errorNow successNow : Time}

theorem Inv.createdAt_of_failed (hs : Inv o h s) (hm : .created j made errorNow successNow ∈ h)
    (hf : (s.entries j).once.failed = true) : createdAt o s j = errorNow := by
  rw [createdAt, if_pos hf, ((hs.entries j).created hm).2.1]
  exact Int.add_sub_cancel ..

theorem Inv.createdAt_of_not_failed (hs : Inv o h s) (hm : .created j made errorNow successNow ∈ h)
    (hf : (s.entries j).once.failed = false) : createdAt o s j = successNow := by
  rw [createdAt, if_neg (by simp [hf]), ((hs.entries j).created hm).2.2]
  exact Int.add_sub_cancel ..

theorem Inv.createdAt_bounds (hs : Inv o h s) (hm : .created j made errorNow successNow ∈ h) :
    errorNow ≤ createdAt o s j ∧ createdAt o s j ≤ successNow := by
  have hle := ((hs.entries j).created hm).1
  cases hf : (s.entries j).once.failed with
  | true =>
    rw [hs.createdAt_of_failed hm hf]
    exact ⟨Int.le_refl _, hle⟩
  | false =>
    rw [hs.createdAt_of_not_failed hm hf]
    exact ⟨hle, Int.le_refl _⟩

end Created

/-! ## What a history says -/

structure SingleFlight (o : OnceWithKey) (createdAt : Nat → Time)
    (h : List (Event K T)) : Prop where
  /-- An entry's time is in the time of its creation. -/
  created {i : Nat} {made : Made K} {errorNow successNow : Time} :
    .created i made errorNow successNow ∈ h → errorNow ≤ createdAt i ∧ createdAt i ≤ successNow
  /-- A call returns what the action returned that was passed to a call with the
  same key, and that action has run once. -/
  returned {i j : Nat} {made : Made K} {outcome : Outcome T} {errorNow successNow : Time} :
    .returned i made j outcome errorNow successNow ∈ h →
      (∃ made', made'.key = made.key ∧ .called j made' ∈ h) ∧ (∃ r, .finished r j outcome ∈ h) ∧
        h.countP (Event.starts j) = 1 ∧ h.countP (Event.finishes j) = 1
  /-- An action is started only after its entry was made, and that only if the entry
  before it could be replaced: by the errors recorded when it was replaced, and, if
  the error timeout is not the longer one, also by those recorded when the action
  starts. -/
  started {i j : Nat} {h₁ h₂ : List (Event K T)} : h = h₂ ++ .started i j :: h₁ →
    ∃ made errorNow successNow h₀ h₀', h₁ = h₀' ++ .created j made errorNow successNow :: h₀ ∧
      ∀ p, latest made.key h₀ = some p → Replaceable o createdAt h₀ p errorNow ∧
        (o.errorTimeout ≤ o.successTimeout → Replaceable o createdAt h₁ p errorNow)
  /-- A value is returned from an entry that is not older than the success timeout
  when the call is made. -/
  fresh {i j : Nat} {made : Made K} {outcome : Outcome T} {errorNow successNow : Time} :
    0 < o.successTimeout → .returned i made j outcome errorNow successNow ∈ h → outcome.err = none →
      made.time - o.successTimeout < createdAt j

section SingleFlight

variable {start : Time} {h₁ h₂ : List (Event K T)}

/-- The entry that a new one replaces. -/
theorem run_replaceable {errorNow successNow : Time} {p : Nat} (hrun : Run o start h s)
    (hh : h = h₂ ++ .created i made errorNow successNow :: h₁) (hp : latest made.key h₁ = some p) :
    Replaceable o (createdAt o s) h₁ p errorNow := by
  subst hh
  obtain ⟨s₁, s₂, hrun₁, hstep, -⟩ := hrun.split
  have hs := run_inv hrun
  have hs₁ := run_inv hrun₁
  obtain ⟨made', errorNow', successNow', hm, -⟩ := exists_created_of_latest hp
  have hm' : .created p made' errorNow' successNow' ∈ h₂ ++
      .created i made errorNow successNow :: h₁ :=
    List.mem_append_right _ (List.mem_cons_of_mem _ hm)
  obtain ⟨-, herror, hsuccess⟩ := (hs₁.entries p).created hm
  cases hstep with
  | create _ _ _ hle hout hnew _ =>
    rcases ((s₁.entries p).isTimedOut_iff ..).mp
      (hout p ((hs₁.onces _).trans hp)) with ⟨htime, herr⟩ | ⟨htime, herr⟩
    · refine .inl ⟨?_, fun hr => (hs₁.entries p).recorded.mpr hr herr⟩
      rw [hsuccess] at htime
      exact Int.le_trans (Int.add_le_add_right (hs.createdAt_bounds hm').2 _)
        (Int.le_trans htime hnew)
    · have hr : Recorded h₁ p := (hs₁.entries p).recorded.mp herr
      have hf : (s.entries p).once.failed = true :=
        (hs.entries p).failed_eq_true ((hr.later [_]).later h₂)
      refine .inr ⟨?_, hr⟩
      rw [hs.createdAt_of_failed hm' hf, ← herror]
      exact Int.le_trans htime (Int.le_trans hle hnew)

/-- What a call that returns has used. -/
theorem run_returned {outcome : Outcome T} {errorNow successNow : Time} (hrun : Run o start h s)
    (hm : .returned i made j outcome errorNow successNow ∈ h) : (∃ r, .finished r j outcome ∈ h) ∧
      ∃ made' errorNow' successNow', made'.key = made.key ∧
      .created j made' errorNow' successNow' ∈ h ∧
        (0 < o.successTimeout → outcome.err = none ∨ o.errorTimeout ≤ o.successTimeout →
          made.time < successNow' + o.successTimeout) := by
  obtain ⟨h₂, h₁, rfl⟩ := List.append_of_mem hm
  obtain ⟨s₁, s₂, hrun₁, hstep, -⟩ := hrun.split
  have hs₁ := run_inv hrun₁
  have hmem : ∀ {e}, e ∈ h₁ → e ∈ h₂ ++ .returned i made j outcome errorNow successNow :: h₁ :=
    fun he => List.mem_append_right _ (List.mem_cons_of_mem _ he)
  cases hstep with
  | ret hi _ _ =>
    obtain ⟨hu, honce, -⟩ := hs₁.call hi
    obtain ⟨r, hr⟩ := ((hs₁.entries j).done outcome).mp honce
    obtain ⟨made', errorNow', successNow', hkey, hcreated⟩ := hu.created
    refine ⟨⟨r, hmem hr⟩, made', errorNow', successNow', hkey, hmem hcreated, fun hpos hcase => ?_⟩
    rw [← ((hs₁.entries j).created hcreated).2.2]
    rcases hcase with hok | hle
    case inr => exact hu.recent hpos hle
    refine (hu.fresh hpos).resolve_right fun herr => ?_
    -- An error is recorded only for an action that has failed.
    obtain ⟨outcome', honce', hne⟩ := (hs₁.entries j).failed herr
    cases honce.symm.trans honce'
    exact hne hok

/-- The call that has made an entry. -/
theorem run_created {errorNow successNow : Time} (hrun : Run o start h s)
    (hm : .created i made errorNow successNow ∈ h) : .called i made ∈ h := by
  obtain ⟨h₂, h₁, rfl⟩ := List.append_of_mem hm
  obtain ⟨s₁, s₂, hrun₁, hstep, -⟩ := hrun.split
  cases hstep with
  | create hi =>
    have hcalled : .called i made ∈ h₁ := ((run_inv hrun₁).made i made).mpr (by rw [hi]; rfl)
    exact List.mem_append_right _ (List.mem_cons_of_mem _ hcalled)

theorem run_singleFlight (hrun : Run o start h s) : SingleFlight o (createdAt o s) h where
  created hm := (run_inv hrun).createdAt_bounds hm
  returned {i j made outcome errorNow successNow} hm := by
    have hj := (run_inv hrun).entries j
    obtain ⟨⟨r, hr⟩, made', errorNow', successNow', hkey, hcreated, -⟩ := run_returned hrun hm
    have honce := (hj.done outcome).mpr ⟨r, hr⟩
    refine ⟨⟨made', hkey, run_created hrun hcreated⟩, ⟨r, hr⟩, ?_, ?_⟩
    · rw [hj.starts, honce]
      rfl
    · rw [hj.finishes, honce]
      rfl
  started {i j h₁ h₂} hh := by
    obtain ⟨s₁, s₂, hrun₁, hstep, -⟩ := (hh ▸ hrun).split
    cases hstep with
    | start hi _ =>
      obtain ⟨made, errorNow, successNow, hm⟩ := ((run_inv hrun₁).call hi).isCreated
      obtain ⟨h₀', h₀, rfl⟩ := List.append_of_mem hm
      refine ⟨made, errorNow, successNow, h₀, h₀', rfl, fun p hp => ?_⟩
      have hsplit : h = (h₂ ++ .started i j :: h₀') ++
          .created j made errorNow successNow :: h₀ := by simp [hh]
      have hrep := run_replaceable hrun hsplit hp
      refine ⟨hrep, fun hle => ?_⟩
      rw [List.append_cons]
      exact hrep.later hle _
  fresh {i j made outcome errorNow successNow} hpos hm hok := by
    have hs := run_inv hrun
    obtain ⟨⟨r, hr⟩, made', errorNow', successNow', -, hcreated, hlt⟩ := run_returned hrun hm
    have hf : (s.entries j).once.failed = false := by
      rw [((hs.entries j).done outcome).mpr ⟨r, hr⟩]
      exact Option.isSome_eq_false_iff.mpr (Option.isNone_iff_eq_none.mpr hok)
    rw [hs.createdAt_of_not_failed hcreated hf]
    exact Int.sub_right_lt_of_lt_add (hlt hpos (.inl hok))

end SingleFlight

/-! ## The clean-up -/

section CleanUp

variable {start : Time}

/-- A call reads a time at which the entry is not timed out. -/
def InTime (entry : OnceWithTimeout T) (errorNow successNow : Time) : Prop :=
  successNow < entry.successTimeout ∧ entry.err = none ∨ errorNow < entry.errorTimeout ∧
    entry.err ≠ none

omit [DecidableEq K] in
theorem isTimedOut_eq_true_iff_not_inTime (entry : OnceWithTimeout T) (errorNow successNow : Time) :
    entry.isTimedOut errorNow successNow = true ↔ ¬InTime entry errorNow successNow := by
  rw [entry.isTimedOut_iff]
  by_cases herr : entry.err = none
  · simp [InTime, herr]
  · simp [InTime, herr]

/-- If the entry that a call has used is timed out when the call returns, and no
other has been made for the key, then there is none in the map. -/
def Removed (h : List (Event K T)) (s s' : State K T) (made : Made K) (j : Nat)
    (errorNow successNow : Time) : Prop :=
  (s.entries j).isTimedOut errorNow successNow = true → latest made.key h = some j →
    s'.onces (.caller made.key) = none

/-- Each call that has returned has found its entry in time, or replaced. -/
def AllInTime (o : OnceWithKey) (start : Time) (h : List (Event K T)) : Prop :=
  ∀ h₁ h₂ i made j outcome errorNow successNow s₁,
    h = h₂ ++ .returned i made j outcome errorNow successNow :: h₁ →
    Run o start h₁ s₁ → InTime (s₁.entries j) errorNow successNow ∨ latest made.key h₁ ≠ some j

def Event.returns (entry : Nat) : Event K T → Bool
  | .returned _ _ j _ _ _ => j == entry
  | _ => false

/-- The last call that has returned with the entry has seen it timed out. -/
def LastSeenTimedOut (o : OnceWithKey) (start : Time) (h : List (Event K T)) (j : Nat) : Prop :=
  ∃ h₁ h₂ i made outcome errorNow successNow s₁,
    h = h₂ ++ .returned i made j outcome errorNow successNow :: h₁ ∧
    (∀ e ∈ h₂, e.returns j = false) ∧ Run o start h₁ s₁ ∧
    (s₁.entries j).isTimedOut errorNow successNow = true

theorem Step.removed_iff {outcome : Outcome T} {errorNow successNow : Time} (hs : Inv o h s)
    (hstep : Step o s (.returned i made j outcome errorNow successNow) s') :
    Removed h s s' made j errorNow successNow ↔
      InTime (s.entries j) errorNow successNow ∨ latest made.key h ≠ some j := by
  -- The map is the same for every key of a caller.
  have honces : s'.onces (.caller made.key) = latest made.key h := by
    cases hstep with
    | ret _ _ _ => rw [onces_goTo, onces_cleanUp, hs.onces]
  rw [Removed, isTimedOut_eq_true_iff_not_inTime, honces]
  constructor
  · intro hremoved
    by_cases hin : InTime (s.entries j) errorNow successNow
    · exact .inl hin
    · exact .inr fun hj => by simp [hremoved hin hj] at hj
  · rintro (hin | hne) hout hj
    · exact absurd hin hout
    · exact absurd hj hne

/-- An entry is made once, so one that was there earlier and is the last now was the
last then. -/
theorem run_latest {h₁ h₂ : List (Event K T)} {key : K} (hrun : Run o start (h₂ ++ h₁) s)
    (hc : Created h₁ j) (hj : latest key (h₂ ++ h₁) = some j) : latest key h₁ = some j := by
  induction h₂ generalizing s with
  | nil => exact hj
  | cons e h₂ ih =>
    cases hrun with
    | step _ hrun hstep =>
      refine ih hrun ?_
      cases he : e.createsFor key with
      | none => simpa [latest, he] using hj
      | some p =>
        obtain rfl : p = j := by simpa [latest, he] using hj
        cases hstep with
        | create hi =>
          obtain ⟨-, rfl⟩ : _ ∧ _ = p := by simpa [Event.createsFor] using he
          exact absurd (hc.later h₂) ((run_inv hrun).call hi)
        | _ => cases he

theorem run_not_lastSeenTimedOut {key : K} (hrun : Run o start h s) (hall : AllInTime o start h)
    (hj : s.onces (.caller key) = some j) : ¬LastSeenTimedOut o start h j := by
  rintro ⟨h₁, h₂, i, made, outcome, errorNow, successNow, s₁, rfl, -, hrun₁, hout⟩
  have hin := hall h₁ h₂ i made j outcome errorNow successNow s₁ rfl hrun₁
  refine (isTimedOut_eq_true_iff_not_inTime ..).mp hout (hin.resolve_right fun hne => hne ?_)
  have hlatest := ((run_inv hrun).onces key).symm.trans hj
  obtain ⟨s₁', s₂, hrun₁', hstep, -⟩ := hrun.split
  cases hstep with
  | ret hi _ _ =>
    -- The entry was made for one key, the one the call was made with.
    obtain ⟨made₁, errorNow₁, successNow₁, hkey₁, hm₁⟩ := ((run_inv hrun₁').call hi).1.created
    obtain ⟨made₂, errorNow₂, successNow₂, hm₂, hkey₂⟩ := exists_created_of_latest hlatest
    have hm₁' : .created j made₁ errorNow₁ successNow₁ ∈ h₂ ++
        .returned i made j outcome errorNow successNow :: h₁ :=
      List.mem_append_right _ (List.mem_cons_of_mem _ hm₁)
    have hmade : made₁ = made₂ := by
      have h₁ := ((run_inv hrun).made j made₁).mp (run_created hrun hm₁')
      have h₂ := ((run_inv hrun).made j made₂).mp (run_created hrun hm₂)
      exact Option.some.inj (h₁.symm.trans h₂)
    obtain rfl : key = made.key := by rw [← hkey₁, ← hkey₂, hmade]
    rw [List.append_cons] at hrun hlatest
    exact run_latest hrun ⟨made₁, errorNow₁, successNow₁, hm₁⟩ hlatest

theorem latest_eq_none_iff (key : K) (h : List (Event K T)) : latest key h = none ↔
    ∀ i made errorNow successNow, .created i made errorNow successNow ∈ h → made.key ≠ key := by
  rw [latest, List.findSome?_eq_none_iff]
  constructor
  · intro hnone i made errorNow successNow hm
    simpa [Event.createsFor] using hnone _ hm
  · intro hne e he
    cases e with
    | created i made errorNow successNow => simpa [Event.createsFor] using hne _ _ _ _ he
    | _ => rfl

end CleanUp

/-! ## What a caller is told -/

/-- What a call with the key that is made at the time `asked` returns, where `node` says what
is true at a time: an action asks for it after its entry was made. -/
def Returns (o : OnceWithKey) (node : Time → Except Err T → Prop) (key : K) (asked : Time)
    (a : Except Err T) : Prop :=
  ∃ start h s i j outcome errorNow successNow, Run o start h s ∧
    .returned i ⟨key, asked⟩ j outcome errorNow successNow ∈ h ∧ outcome.result = a ∧
    ∀ r j made errorNow successNow outcome, .created j made errorNow successNow ∈ h →
    made.key = key → .finished r j outcome ∈ h → ∃ time, successNow ≤ time ∧
    node time outcome.result

theorem Returns.recent {node : Time → Except Err T → Prop} {key : K} {asked : Time}
    {a : Except Err T} (h : o.Returns node key asked a) (hpos : 0 < o.successTimeout)
    (hle : o.errorTimeout ≤ o.successTimeout) :
    ∃ time, asked < time + o.successTimeout ∧ node time a := by
  obtain ⟨start, h, s, i, j, outcome, errorNow, successNow, hrun, hm, rfl, hnode⟩ := h
  obtain ⟨⟨r, hr⟩, made', errorNow', successNow', hkey, hcreated, hlt⟩ := run_returned hrun hm
  obtain ⟨time, htime, htrue⟩ := hnode r j made' errorNow' successNow' outcome hcreated hkey hr
  exact ⟨time, Int.lt_of_lt_of_le (hlt hpos (.inr hle)) (Int.add_le_add_right htime _), htrue⟩

/-! ## One call -/

section OneCall

/-- Those that the bridge clients have. -/
def clientOnces : List OnceWithKey :=
  [txOnce, EVMBridgeClient.latestTimestampOnce, CosmosBridgeClient.latestTimestampOnce]

theorem timeouts_in_order {o : OnceWithKey} (ho : o ∈ clientOnces) :
    0 < o.successTimeout ∧ o.errorTimeout ≤ o.successTimeout := by
  simp only [clientOnces, List.mem_cons, List.not_mem_nil, or_false] at ho
  rcases ho with rfl | rfl | rfl
  · decide
  · decide
  · decide

/-- A call at some time, up to the end of its action. -/
def callAt (key : K) (time : Time) (outcome : Outcome T) : List (Event K T) :=
  [.finished 0 0 outcome, .started 0 0, .created 0 ⟨key, time⟩ time time, .called 0 ⟨key, time⟩]

theorem run_callAt (o : OnceWithKey) (key : K) (time : Time) (outcome : Outcome T) :
    ∃ s, Run o time (callAt key time outcome) s ∧
      s.calls 0 = .got ⟨key, time⟩ 0 outcome outcome.err ∧
      s.now = time ∧ (s.entries 0).err = none ∧
      (s.entries 0).successTimeout = time + o.successTimeout := by
  let s₀ : State K T := { now := time }
  have hcall : Step o s₀ (.called 0 ⟨key, time⟩) _ := .call ⟨key, time⟩ rfl
  have hcreate := Step.create (o := o) (s := s₀.goTo 0 (.called ⟨key, time⟩) time)
    (calls_goTo_self ..) (Int.le_refl time) (Int.le_refl time) (Int.le_refl time) (by simp [s₀])
    (Int.le_refl time) (Int.le_refl time)
  have hrun := (Trace.start.step _ hcall).step _ hcreate
  have hrun' := hrun.step _ (.start (calls_goTo_self ..) (by simp [newOnceWithTimeout]))
  have hrun'' := hrun'.step _ (.finish outcome (calls_goTo_self ..))
  exact ⟨_, hrun'', calls_goTo_self ..,
    by simp, by simp [newOnceWithTimeout], by simp [newOnceWithTimeout]⟩

/-- A call that is alone is told what is so at the time. -/
theorem Returns.of_node (o : OnceWithKey) {node : Time → Except Err T → Prop} (key : K)
    {asked : Time} {outcome : Outcome T}
    (h : node asked outcome.result) : o.Returns node key asked outcome.result := by
  obtain ⟨s, hrun, hgot, hnow, -⟩ := run_callAt o key asked outcome
  have hle : s.now ≤ asked := Int.le_of_eq hnow
  cases herr : outcome.err with
  | none =>
    rw [herr] at hgot
    refine ⟨_, _, _, 0, 0, outcome, _, _, hrun.step _ (.ret hgot hle (Int.le_refl asked)),
      List.mem_cons_self, rfl, ?_⟩
    simp only [callAt, List.mem_cons, List.not_mem_nil, or_false, reduceCtorEq, false_or]
    rintro r j made errorNow successNow outcome' ⟨⟩ - ⟨⟩
    exact ⟨asked, Int.le_refl _, h⟩
  | some err =>
    rw [herr] at hgot
    have hrecord := hrun.step _ (.record hgot)
    refine ⟨_, _, _, 0, 0, outcome, _, _,
      hrecord.step _ (.ret (calls_goTo_self ..) hle (Int.le_refl asked)),
      List.mem_cons_self, rfl, ?_⟩
    simp only [callAt, List.mem_cons, List.not_mem_nil, or_false, reduceCtorEq, false_or]
    rintro r j made errorNow successNow outcome' ⟨⟩ - ⟨⟩
    exact ⟨asked, Int.le_refl _, h⟩

/-- A call, up to the end of its action, which returns a value. -/
def oneCall (key : K) (value : T) : List (Event K T) := callAt key 0 ⟨value, none⟩

theorem run_oneCall (o : OnceWithKey) (key : K) (value : T) : ∃ s, Run o 0 (oneCall key value) s ∧
    s.calls 0 = .got ⟨key, 0⟩ 0 ⟨value, none⟩ none ∧ s.now = 0 ∧ (s.entries 0).err = none ∧
      (s.entries 0).successTimeout = o.successTimeout := by
  obtain ⟨s, hrun, hgot, hnow, herr, hsuccess⟩ := run_callAt o key 0 ⟨value, none⟩
  exact ⟨s, hrun, hgot, hnow, herr, hsuccess.trans (Int.zero_add _)⟩

end OneCall

end OnceWithKey

section Results

open OnceWithKey

variable {K T : Type} [DecidableEq K]

theorem once_single_flight [Inhabited T] (o : OnceWithKey) (start : Time)
    (h : List (OnceWithKey.Event K T))
    (s : State K T) (hrun : Run o start h s) : (∃ createdAt, SingleFlight o createdAt h) ∧
      (o ∈ clientOnces → 0 < o.successTimeout ∧ o.errorTimeout ≤ o.successTimeout) ∧
      ∀ i made, .called i made ∈ h → CanReturn o start h i made :=
  ⟨⟨createdAt o s, run_singleFlight hrun⟩, timeouts_in_order, fun _ _ hm =>
    run_canReturn hrun hm ⟨default, none⟩⟩

/-- A call that runs an action, one that waits for it, and one that comes after the success
timeout and runs another. -/
def threeCalls (key : K) (value value' : T) : List (OnceWithKey.Event K T) :=
  [.returned 2 ⟨key, minute⟩ 2 ⟨value', none⟩ minute minute,
   .finished 2 2 ⟨value', none⟩, .started 2 2,
   .created 2 ⟨key, minute⟩ minute minute, .called 2 ⟨key, minute⟩,
   .returned 1 ⟨key, 0⟩ 0 ⟨value, none⟩ 0 0, .returned 0 ⟨key, 0⟩ 0 ⟨value, none⟩ 0 0, .joined 1 0,
   .finished 0 0 ⟨value, none⟩, .found 1 0, .called 1 ⟨key, 0⟩, .started 0 0,
   .created 0 ⟨key, 0⟩ 0 0,
   .called 0 ⟨key, 0⟩]

theorem run_threeCalls (value value' : Nat) :
    ∃ s, Run txOnce 0 (threeCalls "hash" value value') s := by
  have hzero : (0 : Time) ≤ 0 := Int.le_refl 0
  have hminute : minute ≤ minute := Int.le_refl minute
  have hlater : (0 : Time) ≤ minute := by decide
  have h : Run txOnce 0 [.called 0 ⟨"hash", 0⟩] _ := Trace.start.step _ (.call (T := Nat) _ rfl)
  replace h := h.step (.created 0 ⟨"hash", 0⟩ 0 0)
    (.create rfl hzero hzero hzero (by rintro _ ⟨⟩) hzero hzero)
  replace h := h.step _ (.start (i := 0) (j := 0) rfl rfl)
  replace h := h.step (.called 1 ⟨"hash", 0⟩) (.call _ rfl)
  replace h := h.step _ (.find (i := 1) (j := 0) rfl hzero hzero hzero rfl rfl)
  replace h := h.step _ (.finish (i := 0) (j := 0) ⟨value, none⟩ rfl)
  replace h := h.step _ (.join (i := 1) (j := 0) rfl rfl)
  replace h := h.step _ (.ret (i := 0) (j := 0) rfl hzero hzero)
  replace h := h.step _ (.ret (i := 1) (j := 0) rfl hzero hzero)
  replace h := h.step (.called 2 ⟨"hash", minute⟩) (.call _ rfl)
  replace h := h.step (.created 2 ⟨"hash", minute⟩ minute minute)
    (.create rfl hminute hlater hminute (by rintro _ ⟨⟩; rfl) hminute hminute)
  replace h := h.step _ (.start (i := 2) (j := 2) rfl rfl)
  replace h := h.step _ (.finish (i := 2) (j := 2) ⟨value', none⟩ rfl)
  replace h := h.step _ (.ret (i := 2) (j := 2) rfl hminute hminute)
  exact ⟨_, h⟩

/-- Three calls through a client's `txOnce`: one waits for another, and one replaces the entry. -/
theorem once_single_flight_threeCalls : 0 < txOnce.successTimeout ∧
    txOnce.errorTimeout ≤ txOnce.successTimeout ∧
    ∃ s, Run txOnce 0 (threeCalls "hash" 5 6) s ∧
      ∃ createdAt, SingleFlight txOnce createdAt (threeCalls "hash" 5 6) := by
  obtain ⟨s, hrun⟩ := run_threeCalls 5 6
  obtain ⟨hflight, htimeouts, -⟩ := once_single_flight txOnce 0 _ _ hrun
  obtain ⟨hpos, hle⟩ := htimeouts List.mem_cons_self
  exact ⟨hpos, hle, s, hrun, hflight⟩

theorem expired_once_removed_iff (o : OnceWithKey) (start : Time) (h : List (OnceWithKey.Event K T))
    (s : State K T) (hrun : Run o start h s) :
    (∀ i made j outcome errorNow successNow s',
      Step o s (.returned i made j outcome errorNow successNow) s' →
      (Removed h s s' made j errorNow successNow ↔
        InTime (s.entries j) errorNow successNow ∨ latest made.key h ≠ some j)) ∧
    (AllInTime o start h → ∀ key j, s.onces (.caller key) = some j →
      ¬LastSeenTimedOut o start h j) ∧
    ∀ key, s.onces (.caller key) = none ↔
      ∀ i made errorNow successNow, .created i made errorNow successNow ∈ h → made.key ≠ key := by
  have hs := run_inv hrun
  refine ⟨?_, fun hall key j hj => run_not_lastSeenTimedOut hrun hall hj, fun key => ?_⟩
  · intro i made j outcome errorNow successNow s' hstep
    exact hstep.removed_iff hs
  · rw [hs.onces, latest_eq_none_iff]

/-- A call that returns before the success timeout. -/
theorem expired_once_removed_oneCall : ∃ s s', Run txOnce 0 (oneCall "hash" 5) s ∧
    Step txOnce s (.returned 0 ⟨"hash", 0⟩ 0 ⟨5, none⟩ 0 0) s' ∧
      Removed (oneCall "hash" 5) s s' ⟨"hash", 0⟩ 0 0 0 := by
  obtain ⟨s, hrun, hgot, hnow, herr, hsuccess⟩ := run_oneCall txOnce "hash" 5
  have hstep : Step txOnce s (.returned 0 ⟨"hash", 0⟩ 0 ⟨5, none⟩ 0 0) _ :=
    .ret hgot (hnow ▸ Int.le_refl 0) (Int.le_refl 0)
  have hin : InTime (s.entries 0) 0 0 := .inl ⟨hsuccess ▸ by decide, herr⟩
  exact ⟨s, _, hrun, hstep, ((expired_once_removed_iff txOnce 0 _ s hrun).1 _ _ _ _ _ _ _ hstep).mpr
    (.inl hin)⟩

/-- A call whose action takes as long as the success timeout. -/
theorem expired_once_kept : ∃ s s', Run txOnce 0 (oneCall "hash" 5) s ∧
    Step txOnce s (.returned 0 ⟨"hash", 0⟩ 0 ⟨5, none⟩ minute minute) s' ∧
      (s.entries 0).isTimedOut minute minute = true ∧ latest "hash" (oneCall "hash" 5) = some 0 ∧
        s'.onces (.caller "hash") = some 0 := by
  obtain ⟨s, hrun, hgot, hnow, herr, hsuccess⟩ := run_oneCall txOnce "hash" 5
  have hlatest : latest "hash" (oneCall "hash" 5) = some 0 := rfl
  refine ⟨s, _, hrun, .ret hgot (hnow ▸ by decide) (Int.le_refl _), ?_, hlatest, ?_⟩
  · exact ((s.entries 0).isTimedOut_iff ..).mpr (.inl ⟨hsuccess ▸ Int.le_refl _, herr⟩)
  · rw [onces_goTo, onces_cleanUp, (run_inv hrun).onces, hlatest]

end Results

end PlatformRelayer
