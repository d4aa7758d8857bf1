import Mathlib.Data.List.Nodup

/-!
# Tables with a unique index

A `Table key` is a list of rows no two of which have the same key. `update`
is `UPDATE … SET f WHERE key = k`, for a `SET` clause `f` that leaves the key
columns alone; `row?` reads one row. `row?_update` is all that the proofs need
of the two together. `insert` adds a row with a new key.
-/

namespace PlatformRelayer

/-- The rows of a table whose index on `key` is unique. -/
structure Table {ρ κ : Type} (key : ρ → κ) where
  rows : List ρ
  unique : (rows.map key).Nodup

namespace Table

variable {ρ κ : Type} {key : ρ → κ} [DecidableEq κ]

/-- The row with a key. -/
def row? (db : Table key) (k : κ) : Option ρ := db.rows.find? fun r => key r = k

/-- `f` on the row with key `k`. -/
def update (db : Table key) (k : κ) (f : ρ → ρ) (hf : ∀ r, key (f r) = key r) : Table key where
  rows := db.rows.map fun r => if key r = k then f r else r
  unique := by
    have h : (db.rows.map fun r => if key r = k then f r else r).map key = db.rows.map key := by
      rw [List.map_map]
      refine List.map_congr_left fun r _ => ?_
      simp only [Function.comp_apply]
      split
      · exact hf r
      · rfl
    rw [h]; exact db.unique

/-- The table with a new row. -/
def insert (db : Table key) (r : ρ) (h : key r ∉ db.rows.map key) : Table key where
  rows := r :: db.rows
  unique := List.nodup_cons.mpr ⟨h, db.unique⟩

theorem key_of_row? {db : Table key} {k : κ} {r : ρ} (h : db.row? k = some r) : key r = k := by
  simpa using List.find?_some h

theorem mem_of_row? {db : Table key} {k : κ} {r : ρ} (h : db.row? k = some r) : r ∈ db.rows :=
  List.mem_of_find?_eq_some h

theorem row?_of_mem {db : Table key} {r : ρ} (h : r ∈ db.rows) : db.row? (key r) = some r := by
  obtain ⟨rows, unique⟩ := db
  simp only [row?] at h ⊢
  induction rows with
  | nil => cases h
  | cons x xs ih =>
    simp only [List.map_cons, List.nodup_cons] at unique
    rcases List.mem_cons.mp h with rfl | h'
    · simp
    · have hx : key x ≠ key r := fun e => unique.1 (e ▸ List.mem_map_of_mem h')
      simp only [List.find?_cons, hx, decide_false]
      exact ih unique.2 h'

theorem find?_map_ite (rows : List ρ) (k j : κ) (f : ρ → ρ) (hf : ∀ r, key (f r) = key r) :
    (rows.map fun r => if key r = k then f r else r).find? (fun r => key r = j) =
      if j = k then (rows.find? fun r => key r = j).map f else rows.find? fun r => key r = j := by
  induction rows with
  | nil => simp
  | cons x xs ih =>
    rw [List.map_cons, List.find?_cons, List.find?_cons, ih]
    by_cases hx : key x = k
    · by_cases hj : key x = j
      · have : j = k := hj.symm.trans hx
        simp [hf, hj, this]
      · simp only [hx, if_true, hf, hx ▸ hj, decide_false]
    · by_cases hj : key x = j
      · have : j ≠ k := fun e => hx (hj.trans e)
        simp [hj, this]
      · simp only [hx, if_false, hj, decide_false]

theorem row?_update (db : Table key) (k j : κ) (f : ρ → ρ) (hf : ∀ r, key (f r) = key r) :
    (db.update k f hf).row? j = if j = k then (db.row? j).map f else db.row? j :=
  find?_map_ite db.rows k j f hf

theorem row?_insert {db : Table key} {r x : ρ} (h : key r ∉ db.rows.map key) {k : κ}
    (hx : db.row? k = some x) : (db.insert r h).row? k = some x := by
  have hne : key r ≠ k := fun e => h (e ▸ key_of_row? hx ▸ List.mem_map_of_mem (mem_of_row? hx))
  rw [row?, insert, List.find?_cons_of_neg (by simpa using hne)]
  exact hx

end Table

end PlatformRelayer
