import Mathlib.Data.List.Nodup

/-!
# Tables with a primary key

A table is a list of rows whose keys are pairwise distinct; the distinctness is a
field, so a table with two rows of one key cannot be built. Statements act on it
the way SQL does: `SELECT … WHERE` filters, `UPDATE … SET … WHERE` rewrites every
matching row and reports how many matched, and `INSERT` is refused on a duplicate
key.

Callers reason through `find?`, the row stored under a key. `find?_update` and
`rowcount_updateKey` say all there is to say about an update: which row each key
holds afterwards, and whether the statement found one.
-/

/-- Rows of type `ρ` under the primary key `key`. -/
@[ext]
structure Table (ρ : Type) {κ : Type} (key : ρ → κ) where
  rows : List ρ
  nodup : (rows.map key).Nodup

namespace Table

variable {ρ κ : Type} {key : ρ → κ}

/-- `CREATE TABLE`. -/
def empty : Table ρ key := ⟨[], List.nodup_nil⟩

/-- The row stored under `k`. -/
def find? [DecidableEq κ] (t : Table ρ key) (k : κ) : Option ρ :=
  t.rows.find? (fun r => key r = k)

/-- `SELECT … WHERE p`, in storage order. -/
def select (t : Table ρ key) (p : ρ → Bool) : List ρ := t.rows.filter p

/-- The row that comes first under `before`, the earlier one of two that tie. -/
def firstBy (before : ρ → ρ → Bool) : List ρ → Option ρ
  | [] => none
  | r :: rs =>
      match firstBy before rs with
      | none => some r
      | some r' => if before r' r then some r' else some r

/-- `SELECT … WHERE p ORDER BY before LIMIT 1`. -/
def selectFirst (t : Table ρ key) (p : ρ → Bool) (before : ρ → ρ → Bool) : Option ρ :=
  firstBy before (t.select p)

/-- What `UPDATE … SET f WHERE p` makes of one row. -/
def rewrite (p : ρ → Bool) (f : ρ → ρ) (r : ρ) : ρ := if p r then f r else r

theorem key_rewrite {p : ρ → Bool} {f : ρ → ρ} (hf : ∀ r, key (f r) = key r) (r : ρ) :
    key (rewrite p f r) = key r := by
  unfold rewrite
  split
  · exact hf r
  · rfl

theorem map_key_rewrite {p : ρ → Bool} {f : ρ → ρ} (hf : ∀ r, key (f r) = key r) (rs : List ρ) :
    (rs.map (rewrite p f)).map key = rs.map key := by
  rw [List.map_map]
  exact List.map_congr_left fun r _ => key_rewrite hf r

/-- `UPDATE … SET f WHERE p` and its row count. The assignment leaves the key alone. -/
def update (t : Table ρ key) (p : ρ → Bool) (f : ρ → ρ) (hf : ∀ r, key (f r) = key r) :
    Table ρ key × Nat :=
  (⟨t.rows.map (rewrite p f), by rw [map_key_rewrite hf]; exact t.nodup⟩, t.rows.countP p)

/-- `UPDATE … SET f WHERE key = k AND p`. -/
def updateKey [DecidableEq κ] (t : Table ρ key) (k : κ) (p : ρ → Bool) (f : ρ → ρ)
    (hf : ∀ r, key (f r) = key r) : Table ρ key × Nat :=
  t.update (fun r => decide (key r = k) && p r) f hf

/-- `INSERT`; `none` is the integrity error of a duplicate key. -/
def insert [DecidableEq κ] (t : Table ρ key) (r : ρ) : Option (Table ρ key) :=
  if h : key r ∈ t.rows.map key then none
  else some ⟨r :: t.rows, by rw [List.map_cons]; exact List.nodup_cons.mpr ⟨h, t.nodup⟩⟩

variable {t : Table ρ key} {k k' : κ} {r : ρ}

theorem firstBy_mem {before : ρ → ρ → Bool} {rs : List ρ} (h : firstBy before rs = some r) :
    r ∈ rs := by
  induction rs with
  | nil => exact absurd h (by simp [firstBy])
  | cons x xs ih =>
      rw [firstBy] at h
      split at h
      · rw [← Option.some.inj h]; exact List.mem_cons_self
      · rename_i r' hr'
        split at h
        · exact List.mem_cons_of_mem _ (ih (by rw [hr', ← Option.some.inj h]))
        · rw [← Option.some.inj h]; exact List.mem_cons_self

theorem firstBy_eq_none {before : ρ → ρ → Bool} {rs : List ρ} :
    firstBy before rs = none ↔ rs = [] := by
  cases rs with
  | nil => simp [firstBy]
  | cons x xs =>
      rw [firstBy]
      split
      · simp
      · split <;> simp

/-- The row a `LIMIT 1` query returns is stored and matches. -/
theorem mem_of_selectFirst {p : ρ → Bool} {before : ρ → ρ → Bool}
    (h : t.selectFirst p before = some r) : r ∈ t.rows ∧ p r = true :=
  List.mem_filter.mp (firstBy_mem h)

variable [DecidableEq κ]

theorem find?_empty : (empty : Table ρ key).find? k = none := rfl

theorem key_of_find? (h : t.find? k = some r) : key r = k := by
  simpa using List.find?_some h

theorem mem_of_find? (h : t.find? k = some r) : r ∈ t.rows := List.mem_of_find?_eq_some h

/-- A key determines its row. -/
theorem find?_of_mem (h : r ∈ t.rows) : t.find? (key r) = some r := by
  have hnd := t.nodup
  unfold find?
  revert h hnd
  induction t.rows with
  | nil => intro h; exact absurd h (by simp)
  | cons x xs ih =>
      intro h hnd
      rw [List.map_cons, List.nodup_cons] at hnd
      rcases List.mem_cons.mp h with he | hm
      · subst he; simp
      · have hne : key x ≠ key r := by
          intro he
          exact hnd.1 (he ▸ List.mem_map_of_mem hm)
        rw [List.find?_cons_of_neg (by simpa using hne)]
        exact ih hm hnd.2

theorem mem_iff_find? : r ∈ t.rows ↔ t.find? (key r) = some r :=
  ⟨find?_of_mem, mem_of_find?⟩

theorem find?_eq_none : t.find? k = none ↔ k ∉ t.rows.map key := by
  unfold find?
  rw [List.find?_eq_none]
  constructor
  · intro h hm
    obtain ⟨r, hr, hk⟩ := List.mem_map.mp hm
    exact h r hr (by simpa using hk)
  · intro h r hr hk
    exact h (List.mem_map.mpr ⟨r, hr, by simpa using hk⟩)

/-- **An update rewrites the row under each key, and no other.** -/
theorem find?_update {p : ρ → Bool} {f : ρ → ρ} (hf : ∀ r, key (f r) = key r) :
    (t.update p f hf).1.find? k = (t.find? k).map (rewrite p f) := by
  unfold find? update
  simp only [List.find?_map]
  congr 2
  funext r
  simp [key_rewrite hf]

theorem find?_updateKey_self {p : ρ → Bool} {f : ρ → ρ} (hf : ∀ r, key (f r) = key r) :
    (t.updateKey k p f hf).1.find? k = (t.find? k).map (rewrite p f) := by
  rw [updateKey, find?_update]
  cases h : t.find? k with
  | none => rfl
  | some r => simp [rewrite, key_of_find? h]

theorem find?_updateKey_ne {p : ρ → Bool} {f : ρ → ρ} (hf : ∀ r, key (f r) = key r)
    (hne : k' ≠ k) : (t.updateKey k p f hf).1.find? k' = t.find? k' := by
  rw [updateKey, find?_update]
  cases h : t.find? k' with
  | none => rfl
  | some r => simp [rewrite, key_of_find? h, hne]

/-- What a keyed update makes of each stored row. -/
theorem updateKey_congr {p : ρ → Bool} {f g : ρ → ρ} (hf : ∀ r, key (f r) = key r)
    (hg : ∀ r, key (g r) = key r)
    (h : ∀ r ∈ t.rows, g r = if key r = k ∧ p r = true then f r else r) :
    (t.update (fun _ => true) g hg).1 = (t.updateKey k p f hf).1 := by
  ext1
  refine List.map_congr_left fun r hr => ?_
  simp [rewrite, h r hr]

theorem countP_key_of_not_mem {rs : List ρ} {p : ρ → Bool} (h : k ∉ rs.map key) :
    rs.countP (fun r => decide (key r = k) && p r) = 0 := by
  rw [List.countP_eq_zero]
  intro r hr hp
  simp only [Bool.and_eq_true, decide_eq_true_eq] at hp
  exact h (hp.1 ▸ List.mem_map_of_mem hr)

/-- **The row count of a keyed update**: one if the key holds a matching row, else zero. -/
theorem rowcount_updateKey {p : ρ → Bool} {f : ρ → ρ} (hf : ∀ r, key (f r) = key r) :
    (t.updateKey k p f hf).2 = if (t.find? k).any p then 1 else 0 := by
  have hnd := t.nodup
  unfold updateKey update find?
  simp only
  revert hnd
  induction t.rows with
  | nil => intro _; simp
  | cons x xs ih =>
      intro hnd
      rw [List.map_cons, List.nodup_cons] at hnd
      by_cases hx : key x = k
      · have hz : xs.countP (fun r => decide (key r = k) && p r) = 0 :=
          countP_key_of_not_mem (hx ▸ hnd.1)
        rw [List.find?_cons_of_pos (by simpa using hx), List.countP_cons, hz]
        simp [hx]
      · rw [List.find?_cons_of_neg (by simpa using hx), List.countP_cons, ih hnd.2]
        simp [hx]

theorem find?_insert {r' : ρ} {t' : Table ρ key} (h : t.insert r' = some t') :
    t'.find? k = if key r' = k then some r' else t.find? k := by
  unfold insert at h
  split at h
  · exact absurd h (by simp)
  · rw [← Option.some.inj h]
    unfold find?
    by_cases hk : key r' = k
    · rw [List.find?_cons_of_pos (by simpa using hk), if_pos hk]
    · rw [List.find?_cons_of_neg (by simpa using hk), if_neg hk]

/-- An insert leaves the rows that were there. -/
theorem find?_insert_of_some {r' : ρ} {t' : Table ρ key} (h : t.insert r' = some t')
    (hr : t.find? k = some r) : t'.find? k = some r := by
  rw [find?_insert h, if_neg, hr]
  rintro rfl
  unfold insert at h
  split at h
  · exact absurd h (by simp)
  · rename_i hmem
    rw [find?_eq_none.mpr hmem] at hr
    exact absurd hr (by simp)

theorem insert_eq_none : t.insert r = none ↔ (t.find? (key r)).isSome := by
  rw [← Option.ne_none_iff_isSome, Ne, find?_eq_none, not_not]
  unfold insert
  split <;> simp_all

end Table
