import Mathlib.Data.List.Sort
import Mathlib.Order.Basic

/-!
# Keyset pagination

Pages of a query in descending order of a key. A page asks for one row more than it
returns; if that row is there, the key of the last row returned is the cursor of the
next page, which takes up strictly below it.

The rows may change between two pages. `walk` reads each page off a snapshot of its
own, and nothing is assumed of the snapshots but that a key names one row in each.
What lies above the cursor has been returned or was not there at the time, so a row
that is in every snapshot is returned by exactly one page.
-/

namespace Keyset

variable {ρ κ : Type} [LinearOrder κ] (key : ρ → κ)

/-- `ORDER BY key DESC`. -/
def orderDesc (rows : List ρ) : List ρ := rows.insertionSort fun a b => key b ≤ key a

/-- `WHERE key < cursor`, when there is a cursor. -/
def below : Option κ → ρ → Bool
  | none, _ => true
  | some cursor, row => decide (key row < cursor)

/-- What a page query finds, before it is cut to the limit. -/
def found (cursor : Option κ) (rows : List ρ) : List ρ :=
  orderDesc key (rows.filter (below key cursor))

/-- The rows of a page, and the cursor of the next. -/
def page (limit : Nat) (cursor : Option κ) (rows : List ρ) : List ρ × Option κ :=
  let rows' := found key cursor rows
  (rows'.take limit, if limit < rows'.length then (rows'.take limit).getLast?.map key else none)

/-- Follows the cursor, one snapshot a page; `none` if the snapshots do not suffice. -/
def walk (limit : Nat) : Option κ → List (List ρ) → Option (List ρ)
  | _, [] => none
  | cursor, rows :: snapshots =>
      match (page key limit cursor rows).2 with
      | none => some (page key limit cursor rows).1
      | some next =>
          (walk limit (some next) snapshots).map ((page key limit cursor rows).1 ++ ·)

variable {key} {limit : Nat} {cursor : Option κ} {rows : List ρ}

/-! ## The order -/

theorem orderDesc_perm (rows : List ρ) : (orderDesc key rows).Perm rows :=
  List.perm_insertionSort ..

theorem mem_orderDesc {row : ρ} : row ∈ orderDesc key rows ↔ row ∈ rows :=
  (orderDesc_perm rows).mem_iff

/-- Rows with distinct keys come out strictly descending. -/
theorem orderDesc_pairwise (h : (rows.map key).Nodup) :
    (orderDesc key rows).Pairwise fun a b => key b < key a := by
  have : Std.Total fun a b : ρ => key b ≤ key a := ⟨fun a b => le_total (key b) (key a)⟩
  have : IsTrans ρ fun a b : ρ => key b ≤ key a := ⟨fun _ _ _ hab hbc => hbc.trans hab⟩
  have hle := List.pairwise_insertionSort (fun a b : ρ => key b ≤ key a) rows
  have hne : (orderDesc key rows).Pairwise fun a b => key a ≠ key b := by
    rw [← List.pairwise_map]
    exact (((orderDesc_perm rows).map key).nodup_iff).mpr h
  exact (hle.and hne).imp fun ⟨hab, hneq⟩ => lt_of_le_of_ne hab (Ne.symm hneq)

/-- The order in which the rows are stored does not show. -/
theorem orderDesc_congr {rows' : List ρ} (h : (rows.map key).Nodup) (hperm : rows.Perm rows') :
    orderDesc key rows = orderDesc key rows' := by
  refine List.Perm.eq_of_pairwise (fun a b _ _ hab hba => ?_) (orderDesc_pairwise h)
    (orderDesc_pairwise ((hperm.map key).nodup_iff.mp h))
    (((orderDesc_perm rows).trans hperm).trans (orderDesc_perm rows').symm)
  exact absurd hab (lt_asymm hba)

/-! ## One page -/

theorem mem_found {row : ρ} :
    row ∈ found key cursor rows ↔ row ∈ rows ∧ below key cursor row = true := by
  unfold found
  rw [mem_orderDesc, List.mem_filter]

theorem found_pairwise (h : (rows.map key).Nodup) :
    (found key cursor rows).Pairwise fun a b => key b < key a :=
  orderDesc_pairwise (h.sublist (List.filter_sublist.map key))

theorem mem_page {row : ρ} (h : row ∈ (page key limit cursor rows).1) :
    row ∈ rows ∧ below key cursor row = true :=
  mem_found.mp (List.mem_of_mem_take h)

theorem page_pairwise (h : (rows.map key).Nodup) :
    (page key limit cursor rows).1.Pairwise fun a b => key b < key a :=
  (found_pairwise h).sublist (List.take_sublist ..)

/-- A page without a cursor has everything there is. -/
theorem page_last (h : (page key limit cursor rows).2 = none) (hlimit : 0 < limit) :
    (page key limit cursor rows).1 = found key cursor rows := by
  unfold page at h ⊢
  dsimp only at h ⊢
  split at h
  · rename_i hlt
    rw [Option.map_eq_none_iff, List.getLast?_eq_none_iff, List.take_eq_nil_iff] at h
    rcases h with hzero | hnil
    · omega
    · rw [hnil] at hlt
      exact absurd hlt (by simp)
  · rename_i hle
    exact List.take_of_length_le (by omega)

/-- **The cursor splits what was found**: the page is at it or above, the rest below. -/
theorem page_next {next : κ} (hnd : (rows.map key).Nodup)
    (h : (page key limit cursor rows).2 = some next) :
    (∀ row ∈ (page key limit cursor rows).1, next ≤ key row)
    ∧ (∃ row ∈ (page key limit cursor rows).1, key row = next)
    ∧ ∀ row ∈ found key cursor rows, row ∉ (page key limit cursor rows).1 → key row < next := by
  have hsorted : (found key cursor rows).Pairwise fun a b => key b < key a := found_pairwise hnd
  have hsplit := List.take_append_drop limit (found key cursor rows)
  unfold page at h ⊢
  dsimp only at h ⊢
  split at h
  · obtain ⟨last, hlast, rfl⟩ := Option.map_eq_some_iff.mp h
    obtain ⟨init, hinit⟩ := List.getLast?_eq_some_iff.mp hlast
    rw [← hsplit, hinit] at hsorted
    refine ⟨fun row hrow => ?_, ⟨last, List.mem_of_getLast? hlast, rfl⟩, fun row hrow hout => ?_⟩
    · rw [hinit] at hrow
      rcases List.mem_append.mp hrow with hin | heq
      · have hpair := (List.pairwise_append.mp (List.pairwise_append.mp hsorted).1).2.2
        exact (hpair row hin last (by simp)).le
      · rw [List.mem_singleton.mp heq]
    · rw [← hsplit] at hrow
      rcases List.mem_append.mp hrow with hin | hrest
      · exact absurd hin hout
      · exact (List.pairwise_append.mp hsorted).2.2 last (by simp) row hrest
  · exact absurd h (by simp)

/-- The next page starts strictly further down. -/
theorem below_next {next : κ} (hnd : (rows.map key).Nodup)
    (h : (page key limit cursor rows).2 = some next) {row : ρ}
    (hrow : below key (some next) row = true) : below key cursor row = true := by
  obtain ⟨last, hlast, rfl⟩ := (page_next hnd h).2.1
  cases hc : cursor with
  | none => rfl
  | some c =>
      have hbelow := (mem_page hlast).2
      rw [hc] at hbelow
      simp only [below, decide_eq_true_eq] at hbelow hrow ⊢
      exact hrow.trans hbelow

/-! ## Following the cursor -/

section Walk

variable {snapshots : List (List ρ)} {result : List ρ}

theorem walk_cons_some (h : walk key limit cursor (rows :: snapshots) = some result) :
    ((page key limit cursor rows).2 = none ∧ result = (page key limit cursor rows).1)
    ∨ ∃ next rest, (page key limit cursor rows).2 = some next
      ∧ walk key limit (some next) snapshots = some rest
      ∧ result = (page key limit cursor rows).1 ++ rest := by
  rw [walk] at h
  split at h
  · rename_i hnone
    exact Or.inl ⟨hnone, (Option.some.inj h).symm⟩
  · rename_i next hnext
    obtain ⟨rest, hrest, rfl⟩ := Option.map_eq_some_iff.mp h
    exact Or.inr ⟨next, rest, hnext, hrest, rfl⟩

/-- What is returned was in some snapshot, below the cursor it started with. -/
theorem mem_walk (hnd : ∀ rows ∈ snapshots, (rows.map key).Nodup)
    (h : walk key limit cursor snapshots = some result) {row : ρ} (hrow : row ∈ result) :
    (∃ rows ∈ snapshots, row ∈ rows) ∧ below key cursor row = true := by
  induction snapshots generalizing cursor result with
  | nil => exact absurd h (by simp [walk])
  | cons rows snapshots ih =>
      rcases walk_cons_some h with ⟨_, rfl⟩ | ⟨next, rest, hnext, hrest, rfl⟩
      · exact ⟨⟨rows, List.mem_cons_self, (mem_page hrow).1⟩, (mem_page hrow).2⟩
      · rcases List.mem_append.mp hrow with hin | hin
        · exact ⟨⟨rows, List.mem_cons_self, (mem_page hin).1⟩, (mem_page hin).2⟩
        · obtain ⟨⟨rows', hrows', hmem⟩, hbelow⟩ :=
            ih (fun rows' hr => hnd rows' (List.mem_cons_of_mem _ hr)) hrest hin
          exact ⟨⟨rows', List.mem_cons_of_mem _ hrows', hmem⟩,
            below_next (hnd rows List.mem_cons_self) hnext hbelow⟩

/-- **All pages together are strictly descending.** -/
theorem walk_pairwise (hnd : ∀ rows ∈ snapshots, (rows.map key).Nodup)
    (h : walk key limit cursor snapshots = some result) :
    result.Pairwise fun a b => key b < key a := by
  induction snapshots generalizing cursor result with
  | nil => exact absurd h (by simp [walk])
  | cons rows snapshots ih =>
      have hrows := hnd rows List.mem_cons_self
      have hrest' := fun rows' hr => hnd rows' (List.mem_cons_of_mem rows hr)
      rcases walk_cons_some h with ⟨_, rfl⟩ | ⟨next, rest, hnext, hrest, rfl⟩
      · exact page_pairwise hrows
      · refine List.pairwise_append.mpr ⟨page_pairwise hrows, ih hrest' hrest, ?_⟩
        intro a ha b hb
        have hlt := (mem_walk hrest' hrest hb).2
        simp only [below, decide_eq_true_eq] at hlt
        exact hlt.trans_le ((page_next hrows hnext).1 a ha)

/-- **What is there all the time is returned.** -/
theorem walk_complete (hlimit : 0 < limit) (hnd : ∀ rows ∈ snapshots, (rows.map key).Nodup)
    (h : walk key limit cursor snapshots = some result) {k : κ}
    (hk : ∀ rows ∈ snapshots, ∃ row ∈ rows, key row = k)
    (hbelow : ∀ c, cursor = some c → k < c) : ∃ row ∈ result, key row = k := by
  induction snapshots generalizing cursor result with
  | nil => exact absurd h (by simp [walk])
  | cons rows snapshots ih =>
      obtain ⟨row, hrow, hkey⟩ := hk rows List.mem_cons_self
      have hfound : row ∈ found key cursor rows := by
        refine mem_found.mpr ⟨hrow, ?_⟩
        cases cursor with
        | none => rfl
        | some c => exact decide_eq_true (hkey ▸ hbelow c rfl)
      rcases walk_cons_some h with ⟨hnone, rfl⟩ | ⟨next, rest, hnext, hrest, rfl⟩
      · rw [page_last hnone hlimit]
        exact ⟨row, hfound, hkey⟩
      · by_cases hin : row ∈ (page key limit cursor rows).1
        · exact ⟨row, List.mem_append_left _ hin, hkey⟩
        · -- not on this page, so below its cursor
          have hlt := (page_next (hnd rows List.mem_cons_self) hnext).2.2 row hfound hin
          obtain ⟨row', hrow', hkey'⟩ := ih
            (fun rows' hr => hnd rows' (List.mem_cons_of_mem _ hr)) hrest
            (fun rows' hr => hk rows' (List.mem_cons_of_mem _ hr))
            (fun c hc => by rw [← Option.some.inj hc, ← hkey]; exact hlt)
          exact ⟨row', List.mem_append_right _ hrow', hkey'⟩

/-- Once the rows no longer change, as many pages as there are rows below the cursor suffice. -/
theorem walk_replicate (limit : Nat) (hnd : (rows.map key).Nodup) (n : Nat) :
    ∀ cursor, (rows.filter (below key cursor)).length ≤ n →
      ∃ result, walk key limit cursor (List.replicate (n + 1) rows) = some result := by
  induction n with
  | zero =>
      intro cursor hlen
      have hnil : rows.filter (below key cursor) = [] :=
        List.length_eq_zero_iff.mp (Nat.le_zero.mp hlen)
      have hfound : found key cursor rows = [] := by
        unfold found
        rw [hnil]
        rfl
      refine ⟨[], ?_⟩
      simp [List.replicate_succ, walk, page, hfound]
  | succ n ih =>
      intro cursor hlen
      rw [List.replicate_succ, walk]
      cases hnext : (page key limit cursor rows).2 with
      | none => exact ⟨_, rfl⟩
      | some next =>
          obtain ⟨last, hlast, hkey⟩ := (page_next hnd hnext).2.1
          -- the last row of this page is not below its own cursor
          have hfewer : (rows.filter (below key (some next))).length
              < (rows.filter (below key cursor)).length := by
            have hsub : rows.filter (below key (some next))
                = (rows.filter (below key cursor)).filter (below key (some next)) := by
              rw [List.filter_filter]
              refine List.filter_congr fun row _ => ?_
              cases hb : below key (some next) row with
              | false => rfl
              | true => rw [below_next hnd hnext hb]; rfl
            rw [hsub]
            refine List.length_filter_lt_length_iff_exists.mpr ⟨last, ?_, ?_⟩
            · exact List.mem_filter.mpr (mem_page hlast)
            · simp [below, hkey]
          obtain ⟨rest, hrest⟩ := ih (some next) (by omega)
          exact ⟨_, congrArg (Option.map _) hrest⟩

/-- **The walk ends** once the rows stop changing. -/
theorem walk_ends (limit : Nat) (hnd : (rows.map key).Nodup) (snapshots : List (List ρ))
    (cursor : Option κ) :
    ∃ n result, walk key limit cursor (snapshots ++ List.replicate n rows) = some result := by
  induction snapshots generalizing cursor with
  | nil =>
      obtain ⟨result, hresult⟩ := walk_replicate limit hnd _ cursor (le_refl _)
      exact ⟨_, result, by rw [List.nil_append]; exact hresult⟩
  | cons rows' snapshots ih =>
      cases hnext : (page key limit cursor rows').2 with
      | none => exact ⟨0, _, by rw [List.cons_append, walk, hnext]⟩
      | some next =>
          obtain ⟨n, rest, hrest⟩ := ih (some next)
          refine ⟨n, (page key limit cursor rows').1 ++ rest, ?_⟩
          rw [List.cons_append, walk, hnext]
          exact congrArg (Option.map _) hrest

end Walk

end Keyset
