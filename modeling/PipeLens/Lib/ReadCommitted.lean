import PipeLens.Lib.Table
import Mathlib.Logic.Function.Basic

/-!
# Read committed

One table under concurrent transactions at isolation level `READ COMMITTED`. A
statement sees what is committed when it runs, and what its own transaction has
written. An `UPDATE` locks the rows it writes until its transaction ends. One that
would write a row locked by another transaction waits, and then evaluates its
`WHERE` clause again, on the row as it is committed by then: `updateKey` is not
enabled while it would have to wait, and reads the latest committed row when it
is.

An uncommitted write is kept as the assignment it makes. The row under a lock
cannot change before the lock goes, so it makes no difference whether the
assignment is evaluated when the statement runs or when it is committed.
-/

/-- A `SET` clause that leaves the key alone. -/
structure Assignment {ρ κ : Type} (key : ρ → κ) where
  set : ρ → ρ
  key_set : ∀ r, key (set r) = key r

/-- A table and the row locks of the transactions `τ` in progress. -/
structure ReadCommitted (ρ : Type) {κ : Type} (key : ρ → κ) (τ : Type) where
  committed : Table ρ key
  /-- The transaction that has written a row, and what it will commit. -/
  lock : κ → Option (τ × Assignment key)

namespace ReadCommitted

variable {ρ κ τ : Type} {key : ρ → κ}

/-- No transaction in progress. -/
def ofTable (t : Table ρ key) : ReadCommitted ρ key τ := ⟨t, fun _ => none⟩

variable [DecidableEq τ]

/-- What `t` has written to the row under `k`. -/
def own (s : ReadCommitted ρ key τ) (t : τ) (k : κ) : Option (Assignment key) :=
  match s.lock k with
  | none => none
  | some (t', a) => if t' = t then some a else none

/-- The row as `t` sees it. -/
def seen (s : ReadCommitted ρ key τ) (t : τ) (r : ρ) : ρ :=
  match s.own t (key r) with
  | none => r
  | some a => a.set r

theorem key_seen (s : ReadCommitted ρ key τ) (t : τ) (r : ρ) : key (s.seen t r) = key r := by
  unfold seen
  split
  · rfl
  · exact Assignment.key_set _ r

/-- The table as a statement of `t` sees it. -/
def view (s : ReadCommitted ρ key τ) (t : τ) : Table ρ key :=
  (s.committed.update (fun _ => true) (s.seen t) (s.key_seen t)).1

/-- The locks that are left when `t` ends. -/
def release (s : ReadCommitted ρ key τ) (t : τ) (k : κ) : Option (τ × Assignment key) :=
  match s.own t k with
  | none => s.lock k
  | some _ => none

/-- `COMMIT`. -/
def commit (s : ReadCommitted ρ key τ) (t : τ) : ReadCommitted ρ key τ := ⟨s.view t, s.release t⟩

/-- `ROLLBACK`. -/
def rollback (s : ReadCommitted ρ key τ) (t : τ) : ReadCommitted ρ key τ :=
  ⟨s.committed, s.release t⟩

variable {s s' : ReadCommitted ρ key τ} {t t' : τ} {k : κ} {p : ρ → Bool} {a : Assignment key}

theorem own_eq_some : s.own t k = some a ↔ s.lock k = some (t, a) := by
  unfold own
  split
  · rename_i h; simp [h]
  · rename_i t' a' h
    rw [h]
    split
    · rename_i ht; simp [ht]
    · rename_i ht; simp [ht]

theorem own_eq_none : s.own t k = none ↔ ∀ a, s.lock k ≠ some (t, a) := by
  rw [Option.eq_none_iff_forall_ne_some]
  exact forall_congr' fun a => not_congr own_eq_some

/-- A transaction that has written nothing sees the committed table. -/
theorem view_of_not_own (h : ∀ k a, s.lock k ≠ some (t, a)) : s.view t = s.committed := by
  have hseen : Table.rewrite (fun _ => true) (s.seen t) = id := by
    funext r
    simp [Table.rewrite, seen, own_eq_none.mpr (h (key r))]
  ext1
  show s.committed.rows.map (Table.rewrite (fun _ => true) (s.seen t)) = s.committed.rows
  rw [hseen, List.map_id]

theorem release_eq_some {l : τ × Assignment key} :
    s.release t k = some l ↔ s.lock k = some l ∧ l.1 ≠ t := by
  unfold release
  cases h : s.own t k with
  | some a =>
      rw [own_eq_some] at h
      rw [h]
      simp only [reduceCtorEq, Option.some.injEq, false_iff, not_and]
      rintro rfl
      simp
  | none =>
      refine ⟨fun hl => ⟨hl, ?_⟩, fun hl => hl.1⟩
      rintro rfl
      exact own_eq_none.mp h l.2 hl

variable [DecidableEq κ]

/-- `INSERT` in a transaction of its own; `none` is the integrity error. -/
def insert (s : ReadCommitted ρ key τ) (r : ρ) : Option (ReadCommitted ρ key τ) :=
  (s.committed.insert r).map fun committed => { s with committed := committed }

/--
`UPDATE … SET a WHERE key = k AND p` by `t`, with its row count. Not enabled while
another transaction holds a matching row.
-/
def updateKey (s : ReadCommitted ρ key τ) (t : τ) (k : κ) (p : ρ → Bool) (a : Assignment key) :
    Option (ReadCommitted ρ key τ × Nat) :=
  match (s.view t).find? k with
  | none => some (s, 0)
  | some r =>
      if p r then
        match s.lock k with
        | none => some ({ s with lock := Function.update s.lock k (some (t, a)) }, 1)
        | some (t', a') =>
            if t' = t then
              some ({ s with
                lock := Function.update s.lock k
                  (some (t, ⟨a.set ∘ a'.set, fun r => (a.key_set _).trans (a'.key_set r)⟩)) }, 1)
            else none
      else some (s, 0)

theorem find?_view_of_own (h : s.lock k = some (t, a)) :
    (s.view t).find? k = (s.committed.find? k).map a.set := by
  rw [view, Table.find?_update]
  cases hr : s.committed.find? k with
  | none => rfl
  | some r => simp [Table.rewrite, seen, Table.key_of_find? hr, own_eq_some.mpr h]

/-- Rows `t` has not written look as they are committed. -/
theorem find?_view_of_not_own (h : ∀ a, s.lock k ≠ some (t, a)) :
    (s.view t).find? k = s.committed.find? k := by
  rw [view, Table.find?_update]
  cases hr : s.committed.find? k with
  | none => rfl
  | some r => simp [Table.rewrite, seen, Table.key_of_find? hr, own_eq_none.mpr h]

/-- **The two ways an update goes**: it finds nothing, or it takes the lock. -/
theorem updateKey_cases {n : Nat} (h : s.updateKey t k p a = some (s', n))
    (hown : ∀ a, s.lock k ≠ some (t, a)) :
    (s' = s ∧ n = 0 ∧ ∀ r, s.committed.find? k = some r → p r = false)
    ∨ (n = 1 ∧ s.lock k = none ∧ (∃ r, s.committed.find? k = some r ∧ p r = true)
      ∧ s' = { s with lock := Function.update s.lock k (some (t, a)) }) := by
  unfold updateKey at h
  rw [find?_view_of_not_own hown] at h
  cases hr : s.committed.find? k with
  | none =>
      rw [hr] at h
      simp only [Option.some.injEq, Prod.mk.injEq] at h
      exact Or.inl ⟨h.1.symm, h.2.symm, fun r hr' => absurd hr' (by simp)⟩
  | some r =>
      rw [hr] at h
      by_cases hp : p r = true
      · simp only [hp, if_true] at h
        cases hl : s.lock k with
        | none =>
            rw [hl] at h
            simp only [Option.some.injEq, Prod.mk.injEq] at h
            exact Or.inr ⟨h.2.symm, rfl, ⟨r, rfl, hp⟩, h.1.symm⟩
        | some l =>
            obtain ⟨t', a'⟩ := l
            rw [hl] at h
            by_cases ht : t' = t
            · rw [ht] at hl
              exact absurd hl (hown a')
            · simp [ht] at h
      · simp only [hp, Bool.false_eq_true, if_false, Option.some.injEq, Prod.mk.injEq] at h
        refine Or.inl ⟨h.1.symm, h.2.symm, fun r' hr' => ?_⟩
        rw [← Option.some.inj hr']
        simpa using hp

/-! ## The end of a transaction -/

theorem find?_commit_of_own (h : s.lock k = some (t, a)) :
    (s.commit t).committed.find? k = (s.committed.find? k).map a.set := find?_view_of_own h

theorem find?_commit_of_not_own (h : ∀ a, s.lock k ≠ some (t, a)) :
    (s.commit t).committed.find? k = s.committed.find? k := find?_view_of_not_own h

omit [DecidableEq τ] in
theorem find?_insert {r : ρ} (h : s.insert r = some s') :
    s'.committed.find? k = (if key r = k then some r else s.committed.find? k)
      ∧ s'.lock = s.lock := by
  unfold insert at h
  obtain ⟨t, ht, rfl⟩ := Option.map_eq_some_iff.mp h
  exact ⟨Table.find?_insert ht, rfl⟩

omit [DecidableEq τ] in
theorem find?_insert_of_some {r r' : ρ} (h : s.insert r' = some s')
    (hr : s.committed.find? k = some r) : s'.committed.find? k = some r := by
  unfold insert at h
  obtain ⟨t, ht, rfl⟩ := Option.map_eq_some_iff.mp h
  exact Table.find?_insert_of_some ht hr

/-- **A transaction that runs alone** updates the table the plain way. -/
theorem commit_updateKey (hfree : ∀ k, s.lock k = none) :
    ∃ s' n, s.updateKey t k p a = some (s', n)
      ∧ n = (s.committed.updateKey k p a.set a.key_set).2
      ∧ (s'.commit t).committed = (s.committed.updateKey k p a.set a.key_set).1
      ∧ ∀ k', (s'.commit t).lock k' = none := by
  have hown : ∀ k a, s.lock k ≠ some (t, a) := fun k a => by simp [hfree k]
  have hsame : (∀ r, s.committed.find? k = some r → p r = false) →
      (s.commit t).committed = (s.committed.updateKey k p a.set a.key_set).1
        ∧ ∀ k', (s.commit t).lock k' = none := by
    intro hno
    refine ⟨Table.updateKey_congr _ (s.key_seen t) fun r hr => ?_, fun k' => ?_⟩
    · rw [seen, own_eq_none.mpr (hown (key r)), if_neg]
      rintro ⟨rfl, hp⟩
      rw [hno r (Table.find?_of_mem hr)] at hp
      exact absurd hp (by simp)
    · show s.release t k' = none
      rw [release, own_eq_none.mpr (hown k'), hfree]
  unfold updateKey
  rw [view_of_not_own hown, Table.rowcount_updateKey]
  cases hr : s.committed.find? k with
  | none => exact ⟨s, 0, rfl, rfl, hsame fun r hr' => by rw [hr] at hr'; exact absurd hr' (by simp)⟩
  | some r =>
      by_cases hp : p r = true
      · simp only [hp, if_true, hfree k]
        refine ⟨_, 1, rfl, by simp [hp],
          Table.updateKey_congr _ (key_seen _ t) fun r' hr' => ?_, fun k' => ?_⟩
        · by_cases hk : key r' = k
          · have he : r' = r := by
              have h := Table.find?_of_mem hr'
              rw [hk, hr] at h
              exact (Option.some.inj h).symm
            rw [if_pos ⟨hk, by rw [he]; exact hp⟩, seen, hk,
              own_eq_some.mpr (Function.update_self ..)]
          · rw [if_neg (fun h => hk h.1), seen, own_eq_none.mpr]
            intro a'
            simp [Function.update_of_ne hk, hfree]
        · show ReadCommitted.release _ t k' = none
          cases hrel : ReadCommitted.release
              { s with lock := Function.update s.lock k (some (t, a)) } t k' with
          | none => rfl
          | some l =>
              obtain ⟨hl, hne⟩ := release_eq_some.mp hrel
              by_cases hk : k' = k
              · subst hk
                simp only [Function.update_self, Option.some.injEq] at hl
                exact absurd (congrArg Prod.fst hl).symm hne
              · simp [Function.update_of_ne hk, hfree] at hl
      · simp only [hp, Bool.false_eq_true, if_false]
        refine ⟨s, 0, rfl, by simp [hp], hsame fun r' hr' => ?_⟩
        rw [hr] at hr'
        rw [← Option.some.inj hr']
        simpa using hp

end ReadCommitted
