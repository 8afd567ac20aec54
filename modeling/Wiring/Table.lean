/-!
# Tables

A table holds one value per key, its rows in ascending order of the keys. A set of keys is kept as
an ascending list. All the orders in which this library lists things come from here. The keys of a
table grow as a set of keys does (`Table.keys_put`), such a list stays ascending
(`pairwise_insertAscending`), and a table answers a key with the value last put there
(`Table.get?_put`).
-/

namespace Wiring

section Ascending

variable {κ : Type} [DecidableEq κ] [LT κ] [DecidableLT κ]

/-- Puts a key in its place in an ascending list; a key that is there already is not repeated. -/
def insertAscending (key : κ) : List κ → List κ
  | [] => [key]
  | head :: rest =>
    if key = head then head :: rest
    else if key < head then key :: head :: rest
    else head :: insertAscending key rest

theorem mem_insertAscending {key x : κ} {keys : List κ} :
    x ∈ insertAscending key keys ↔ x = key ∨ x ∈ keys := by
  induction keys with
  | nil => simp [insertAscending]
  | cons head rest ih =>
    rw [insertAscending]
    split
    · next h => simp [h]
    · split
      · simp
      · rw [List.mem_cons, ih, List.mem_cons, or_left_comm]

/-- Inserting keeps a list ascending. -/
theorem pairwise_insertAscending [Std.Trichotomous (α := κ) (· < ·)]
    [Trans (α := κ) (· < ·) (· < ·) (· < ·)] (key : κ) {keys : List κ}
    (h : keys.Pairwise (· < ·)) : (insertAscending key keys).Pairwise (· < ·) := by
  induction keys with
  | nil => exact List.pairwise_singleton _ _
  | cons head rest ih =>
    have hr := List.pairwise_cons.1 h
    rw [insertAscending]
    split
    · exact h
    · next hne =>
      split
      · next hlt =>
        refine List.pairwise_cons.2 ⟨fun x hx => ?_, h⟩
        rcases List.mem_cons.1 hx with rfl | hx
        · exact hlt
        · exact Trans.trans hlt (hr.1 x hx)
      · next hlt =>
        refine List.pairwise_cons.2 ⟨fun x hx => ?_, ih hr.2⟩
        rcases mem_insertAscending.1 hx with rfl | hx
        · exact Classical.byContradiction fun hgt =>
            hne (Std.Trichotomous.trichotomous (r := (· < ·)) _ _ hlt hgt)
        · exact hr.1 x hx

end Ascending

/-- One value per key, in ascending order of the keys. -/
structure Table (κ ν : Type) where
  rows : List (κ × ν)
  deriving Repr, Inhabited

namespace Table

variable {κ ν : Type}

/-- The table without rows. -/
def empty : Table κ ν := ⟨[]⟩

/-- The keys, ascending. -/
def keys (t : Table κ ν) : List κ := t.rows.map (·.1)

/-- The values, in the order of their keys. -/
def values (t : Table κ ν) : List ν := t.rows.map (·.2)

/-- The number of rows. -/
def size (t : Table κ ν) : Nat := t.rows.length

/-- The value at a key. -/
def get? [DecidableEq κ] (t : Table κ ν) (key : κ) : Option ν :=
  (t.rows.find? fun row => row.1 = key).map (·.2)

/-- Puts a row in its place, instead of the row with the same key if there is one. -/
def putRow [DecidableEq κ] [LT κ] [DecidableLT κ] (key : κ) (value : ν) :
    List (κ × ν) → List (κ × ν)
  | [] => [(key, value)]
  | row :: rest =>
    if key = row.1 then (key, value) :: rest
    else if key < row.1 then (key, value) :: row :: rest
    else row :: putRow key value rest

/-- The table with the given value at a key. -/
def put [DecidableEq κ] [LT κ] [DecidableLT κ] (t : Table κ ν) (key : κ) (value : ν) :
    Table κ ν :=
  ⟨putRow key value t.rows⟩

/-- Changes the value at a key, if there is one. -/
def update [DecidableEq κ] (t : Table κ ν) (key : κ) (change : ν → ν) : Table κ ν :=
  ⟨t.rows.map fun row => if row.1 = key then (row.1, change row.2) else row⟩

/-- Changes every value. -/
def mapValues (t : Table κ ν) (change : ν → ν) : Table κ ν :=
  ⟨t.rows.map fun row => (row.1, change row.2)⟩

/-! ## Keys -/

section Keys

variable [DecidableEq κ]

theorem keys_put [LT κ] [DecidableLT κ] (t : Table κ ν) (key : κ) (value : ν) :
    (t.put key value).keys = insertAscending key t.keys := by
  suffices ∀ rows : List (κ × ν),
      (putRow key value rows).map (·.1) = insertAscending key (rows.map (·.1)) from this t.rows
  intro rows
  induction rows with
  | nil => rfl
  | cons row rest ih =>
    rw [putRow, List.map_cons, insertAscending]
    split
    · next h => simp [h]
    · split
      · rfl
      · rw [List.map_cons, ih]

/-- Putting a value never makes a table smaller. -/
theorem size_le_put [LT κ] [DecidableLT κ] (t : Table κ ν) (key : κ) (value : ν) :
    t.size ≤ (t.put key value).size := by
  have hlength : ∀ keys : List κ, keys.length ≤ (insertAscending key keys).length := by
    intro keys
    induction keys with
    | nil => simp
    | cons head rest ih =>
      rw [insertAscending]
      split
      · simp
      · split
        · simp
        · simpa using ih
  have hkeys := hlength t.keys
  rw [← keys_put t key value] at hkeys
  simpa [keys, size] using hkeys

@[simp] theorem keys_update (t : Table κ ν) (key : κ) (change : ν → ν) :
    (t.update key change).keys = t.keys := by
  simp only [keys, update, List.map_map]
  refine List.map_congr_left fun row _ => ?_
  simp only [Function.comp_apply]
  split <;> rfl

omit [DecidableEq κ] in
@[simp] theorem keys_mapValues (t : Table κ ν) (change : ν → ν) :
    (t.mapValues change).keys = t.keys := by
  simp [keys, mapValues]

end Keys

/-! ## Values -/

section Values

variable [DecidableEq κ]

@[simp] theorem get?_empty (key : κ) : (empty : Table κ ν).get? key = none := rfl

theorem get?_put [LT κ] [DecidableLT κ] (t : Table κ ν) (key : κ) (value : ν) (other : κ) :
    (t.put key value).get? other = if key = other then some value else t.get? other := by
  suffices ∀ rows : List (κ × ν),
      ((putRow key value rows).find? fun row => row.1 = other).map (·.2) =
        if key = other then some value
        else (rows.find? fun row => row.1 = other).map (·.2) from this t.rows
  intro rows
  induction rows with
  | nil => by_cases h : key = other <;> simp [putRow, h]
  | cons row rest ih =>
    rw [putRow]
    split
    · next hk =>
      subst hk
      by_cases h : row.1 = other <;> simp [h]
    · next hk =>
      split
      · by_cases h : key = other <;> simp [List.find?_cons, h]
      · by_cases h : row.1 = other
        · have hne : key ≠ other := fun e => hk (e.trans h.symm)
          simp [h, hne]
        · simpa [List.find?_cons, h] using ih

theorem get?_update (t : Table κ ν) (key : κ) (change : ν → ν) (other : κ) :
    (t.update key change).get? other =
      if key = other then (t.get? other).map change else t.get? other := by
  obtain ⟨rows⟩ := t
  simp only [get?, update]
  induction rows with
  | nil => simp
  | cons row rest ih =>
    rw [List.map_cons, List.find?_cons, List.find?_cons]
    by_cases hk : row.1 = key <;> by_cases h : row.1 = other
    · simp [hk, hk.symm.trans h]
    · simpa only [hk, if_true, show ¬ key = other from fun e => h (hk.trans e), decide_false]
        using ih
    · have hne : key ≠ other := fun e => hk (h.trans e.symm)
      rw [if_neg hk, if_neg hne, decide_eq_true h]
    · simpa only [hk, if_false, h, decide_false] using ih

theorem get?_mapValues (t : Table κ ν) (change : ν → ν) (key : κ) :
    (t.mapValues change).get? key = (t.get? key).map change := by
  simp only [get?, mapValues, List.find?_map, Option.map_map]
  rfl

/-- The keys of a table are those at which it has a value. -/
theorem mem_keys {t : Table κ ν} {key : κ} : key ∈ t.keys ↔ (t.get? key).isSome := by
  simp [keys, get?]

end Values

end Table

end Wiring
