import Mathlib

/-!
# Tables with a primary key

A `Table key` is a list of rows in which no two rows have the same key: the structure carries that
as a field, so it holds of every table a statement leaves.  `insert`, `update` and `delete` are
the three statements that change one.  `insert` fails on a key already taken; an `update` may not
touch the key.  The membership lemmas say which rows a statement leaves, and are all that a proof
about a table needs.
-/

namespace Sql

variable {ρ κ : Type*}

/-- Rows of type `ρ` with the primary key `key`. -/
structure Table (key : ρ → κ) where
  rows : List ρ
  nodup : (rows.map key).Nodup

namespace Table

variable {key : ρ → κ}

instance : Membership ρ (Table key) := ⟨fun t r => r ∈ t.rows⟩

lemma mem_iff {t : Table key} {r : ρ} : r ∈ t ↔ r ∈ t.rows := Iff.rfl

/-- The table with no row. -/
def empty (key : ρ → κ) : Table key := ⟨[], List.nodup_nil⟩

@[simp] lemma not_mem_empty (r : ρ) : r ∉ empty key := by
  intro h
  cases h

/-- A row is determined by its key. -/
lemma eq_of_key_eq {t : Table key} {r r' : ρ} (hr : r ∈ t) (hr' : r' ∈ t)
    (hkey : key r = key r') : r = r' :=
  List.inj_on_of_nodup_map t.nodup hr hr' hkey

/-- `UPDATE … SET … WHERE sel`: the rows `sel` picks are rewritten by `set`, which keeps the
key. -/
def update (t : Table key) (sel : ρ → Bool) (set : ρ → ρ) (hset : ∀ r, key (set r) = key r) :
    Table key where
  rows := t.rows.map fun r => if sel r then set r else r
  nodup := by
    have hkeys : (key ∘ fun r => if sel r then set r else r) = key := by
      funext r
      cases h : sel r <;> simp [h, hset]
    rw [List.map_map, hkeys]
    exact t.nodup

lemma mem_update_iff {t : Table key} {sel : ρ → Bool} {set : ρ → ρ}
    {hset : ∀ r, key (set r) = key r} {r : ρ} :
    r ∈ t.update sel set hset ↔ ∃ x ∈ t, (if sel x then set x else x) = r := by
  simp [mem_iff, update]

/-- When every row has a property, an update keeps that exactly if each row it picks still has the
property when rewritten. -/
lemma forall_update_iff {P : ρ → Prop} {t : Table key} {sel : ρ → Bool} {set : ρ → ρ}
    {hset : ∀ r, key (set r) = key r} (h : ∀ r ∈ t, P r) :
    (∀ r ∈ t.update sel set hset, P r) ↔ ∀ r ∈ t, sel r = true → P (set r) := by
  constructor
  · intro hnew r hr hsel
    exact hnew _ (mem_update_iff.mpr ⟨r, hr, if_pos hsel⟩)
  · intro hnew r hr
    obtain ⟨x, hx, rfl⟩ := mem_update_iff.mp hr
    split_ifs with hsel
    · exact hnew x hx hsel
    · exact h x hx

/-- `DELETE … WHERE sel`. -/
def delete (t : Table key) (sel : ρ → Bool) : Table key where
  rows := t.rows.filter fun r => !sel r
  nodup := t.nodup.sublist (List.filter_sublist.map key)

lemma mem_delete_iff {t : Table key} {sel : ρ → Bool} {r : ρ} :
    r ∈ t.delete sel ↔ r ∈ t ∧ sel r = false := by
  simp [mem_iff, delete]

variable [DecidableEq κ]

/-- `SELECT … WHERE key = ?`. -/
def get? (t : Table key) (k : κ) : Option ρ := t.rows.find? fun r => key r = k

lemma get?_eq_some_iff {t : Table key} {k : κ} {r : ρ} :
    t.get? k = some r ↔ r ∈ t ∧ key r = k := by
  constructor
  · intro h
    exact ⟨List.mem_of_find?_eq_some h, by simpa using List.find?_some h⟩
  · rintro ⟨hr, rfl⟩
    have hsome : (t.get? (key r)).isSome := List.find?_isSome.mpr ⟨r, hr, by simp⟩
    obtain ⟨x, hx⟩ := Option.isSome_iff_exists.mp hsome
    have hkey : key x = key r := by simpa using List.find?_some hx
    rw [hx, eq_of_key_eq (List.mem_of_find?_eq_some hx) hr hkey]

lemma get?_eq_none_iff {t : Table key} {k : κ} : t.get? k = none ↔ ∀ r ∈ t, key r ≠ k := by
  simp [get?, mem_iff]

/-- `INSERT`: refused when the key is taken. -/
def insert (t : Table key) (r : ρ) : Option (Table key) :=
  if h : key r ∈ t.rows.map key then none
  else some ⟨t.rows ++ [r], by
    rw [List.map_append, List.map_singleton, List.nodup_append_comm]
    exact List.nodup_cons.mpr ⟨h, t.nodup⟩⟩

lemma insert_eq_some_iff {t t' : Table key} {r : ρ} :
    t.insert r = some t' ↔ (∀ x ∈ t, key x ≠ key r) ∧ t'.rows = t.rows ++ [r] := by
  unfold insert
  split_ifs with h
  · simp only [false_iff, not_and]
    intro hnew
    obtain ⟨x, hx, hkey⟩ := List.mem_map.mp h
    exact absurd hkey (hnew x hx)
  · have hnew : ∀ x ∈ t, key x ≠ key r := by
      intro x hx hkey
      exact h (List.mem_map.mpr ⟨x, hx, hkey⟩)
    rw [and_iff_right hnew]
    cases t'
    simp [eq_comm]

lemma insert_ne_none {t : Table key} {r : ρ} (h : ∀ x ∈ t, key x ≠ key r) : t.insert r ≠ none := by
  unfold insert
  split_ifs with hmem
  · obtain ⟨x, hx, hkey⟩ := List.mem_map.mp hmem
    exact absurd hkey (h x hx)
  · exact Option.some_ne_none _

lemma mem_of_insert {t t' : Table key} {r x : ρ} (h : t.insert r = some t') :
    x ∈ t' ↔ x ∈ t ∨ x = r := by
  rw [mem_iff, (insert_eq_some_iff.mp h).2]
  simp [mem_iff]

/-! ### Looking a row up after a statement -/

lemma get?_insert {t t' : Table key} {r : ρ} (h : t.insert r = some t') (k : κ) :
    t'.get? k = if key r = k then some r else t.get? k := by
  obtain ⟨hfree, -⟩ := insert_eq_some_iff.mp h
  split_ifs with hk
  · exact get?_eq_some_iff.mpr ⟨(mem_of_insert h).mpr (.inr rfl), hk⟩
  · cases hget : t.get? k with
    | some x =>
      obtain ⟨hx, hxk⟩ := get?_eq_some_iff.mp hget
      exact get?_eq_some_iff.mpr ⟨(mem_of_insert h).mpr (.inl hx), hxk⟩
    | none =>
      rw [get?_eq_none_iff] at hget ⊢
      intro x hx
      rcases (mem_of_insert h).mp hx with hx | rfl
      · exact hget x hx
      · exact hk

lemma get?_update {t : Table key} {sel : ρ → Bool} {set : ρ → ρ}
    {hset : ∀ r, key (set r) = key r} (k : κ) :
    (t.update sel set hset).get? k = (t.get? k).map fun r => if sel r then set r else r := by
  have hkey : ∀ r, key (if sel r then set r else r) = key r := by
    intro r
    split_ifs
    · exact hset r
    · rfl
  cases hget : t.get? k with
  | some x =>
    obtain ⟨hx, hxk⟩ := get?_eq_some_iff.mp hget
    exact get?_eq_some_iff.mpr ⟨mem_update_iff.mpr ⟨x, hx, rfl⟩, (hkey x).trans hxk⟩
  | none =>
    rw [get?_eq_none_iff] at hget
    rw [Option.map_none, get?_eq_none_iff]
    intro y hy
    obtain ⟨x, hx, rfl⟩ := mem_update_iff.mp hy
    rw [hkey]
    exact hget x hx

lemma get?_delete {t : Table key} {sel : ρ → Bool} (k : κ) :
    (t.delete sel).get? k = (t.get? k).filter fun r => !sel r := by
  cases hget : t.get? k with
  | some x =>
    obtain ⟨hx, hxk⟩ := get?_eq_some_iff.mp hget
    cases hsel : sel x with
    | false =>
      rw [Option.filter_some_pos (by simp [hsel])]
      exact get?_eq_some_iff.mpr ⟨mem_delete_iff.mpr ⟨hx, hsel⟩, hxk⟩
    | true =>
      rw [Option.filter_some_neg (by simp [hsel]), get?_eq_none_iff]
      intro y hy hyk
      obtain ⟨hy, hysel⟩ := mem_delete_iff.mp hy
      rw [eq_of_key_eq hy hx (hyk.trans hxk.symm), hsel] at hysel
      cases hysel
  | none =>
    rw [get?_eq_none_iff] at hget
    rw [Option.filter_none, get?_eq_none_iff]
    intro y hy
    exact hget y (mem_delete_iff.mp hy).1

/-- `INSERT … ON CONFLICT DO NOTHING`. -/
def insertIfAbsent (t : Table key) (r : ρ) : Table key := (t.insert r).getD t

lemma get?_insertIfAbsent {t : Table key} {r : ρ} (k : κ) :
    (t.insertIfAbsent r).get? k = (t.get? k).orElse fun _ => if key r = k then some r else none := by
  unfold insertIfAbsent
  cases hins : t.insert r with
  | some t' =>
    rw [Option.getD_some, get?_insert hins]
    split_ifs with hk
    · have hnone : t.get? k = none := by
        rw [get?_eq_none_iff, ← hk]
        exact (insert_eq_some_iff.mp hins).1
      simp [hnone]
    · cases t.get? k <;> rfl
  | none =>
    rw [Option.getD_none]
    cases hget : t.get? k with
    | some x => rfl
    | none =>
      rw [Option.orElse_none, eq_comm, if_neg]
      intro hk
      rw [get?_eq_none_iff, ← hk] at hget
      exact insert_ne_none hget hins

/-- `INSERT OR REPLACE`. -/
def replace (t : Table key) (r : ρ) : Table key where
  rows := (t.delete fun x => key x = key r).rows ++ [r]
  nodup := by
    rw [List.map_append, List.map_singleton, List.nodup_append_comm]
    refine List.nodup_cons.mpr ⟨?_, (t.delete fun x => key x = key r).nodup⟩
    intro hmem
    obtain ⟨x, hx, hkey⟩ := List.mem_map.mp hmem
    have hout := (mem_delete_iff.mp (mem_iff.mpr hx)).2
    simp [hkey] at hout

lemma mem_replace_iff {t : Table key} {r x : ρ} :
    x ∈ t.replace r ↔ x = r ∨ x ∈ t ∧ key x ≠ key r := by
  have hrows : x ∈ t.replace r ↔ x ∈ (t.delete fun x => key x = key r) ∨ x = r := by
    rw [mem_iff]
    simp [replace, mem_iff]
  rw [hrows, mem_delete_iff, or_comm]
  simp

/-- `INSERT … ON CONFLICT DO UPDATE SET`. -/
def upsert (t : Table key) (r : ρ) (set : ρ → ρ) (hset : ∀ x, key (set x) = key x) :
    Table key :=
  match t.insert r with
  | some t' => t'
  | none => t.update (fun x => key x = key r) set hset

lemma get?_upsert {t : Table key} {r : ρ} {set : ρ → ρ} {hset : ∀ x, key (set x) = key x} (k : κ) :
    (t.upsert r set hset).get? k =
      if key r = k then some ((t.get? k).elim r set) else t.get? k := by
  unfold upsert
  cases hins : t.insert r with
  | some t' =>
    dsimp only
    rw [get?_insert hins]
    split_ifs with hk
    · have hnone : t.get? k = none := by
        rw [get?_eq_none_iff, ← hk]
        exact (insert_eq_some_iff.mp hins).1
      simp [hnone]
    · rfl
  | none =>
    dsimp only
    rw [get?_update]
    cases hget : t.get? k with
    | some x =>
      obtain ⟨hx, hxk⟩ := get?_eq_some_iff.mp hget
      rw [Option.map_some, hxk]
      by_cases hk : key r = k
      · simp [hk]
      · simp [hk, Ne.symm hk]
    | none =>
      rw [Option.map_none, eq_comm, if_neg]
      intro hk
      rw [get?_eq_none_iff, ← hk] at hget
      exact insert_ne_none hget hins

end Table

end Sql
