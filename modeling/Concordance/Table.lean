/-!
# Tables

Entries under keys, in the order in which the keys first came. Giving a key another entry leaves
it where it is.

## Main definitions

* `Table`: the entries
* `Table.find?`, `Table.insert`, `Table.insertNew`: looking up and entering
* `Table.alter`: changing an entry

## Main results

* `Table.find?_insert`, `Table.find?_insertNew`, `Table.find?_alter`: what entering and changing do
  to looking up
* `Table.insert_insert`: the last entry of a key counts
* `Table.mem_of_find?`: what is found under a key is one of the entries
* `Table.has_iff`, `Table.find?_eq_some_iff`: looking up by membership
-/

namespace Concordance

/-- Entries under keys, in order. -/
abbrev Table (κ α : Type) := List (κ × α)

namespace Table

variable {κ α : Type} [DecidableEq κ]

/-- The entry of a key. -/
def find? (key : κ) : Table κ α → Option α
  | [] => none
  | (k, a) :: rest => if k = key then some a else find? key rest

/-- Whether a key has an entry. -/
def has (key : κ) (t : Table κ α) : Bool := (t.find? key).isSome

/-- Give a key an entry, in place of the one it had. -/
def insert (key : κ) (a : α) : Table κ α → Table κ α
  | [] => [(key, a)]
  | (k, b) :: rest => if k = key then (k, a) :: rest else (k, b) :: insert key a rest

/-- Give a key an entry unless it has one. -/
def insertNew (key : κ) (a : α) (t : Table κ α) : Table κ α :=
  if t.has key then t else t ++ [(key, a)]

/-- Change the entry of a key, or start it. -/
def alter (key : κ) (change : Option α → α) : Table κ α → Table κ α
  | [] => [(key, change none)]
  | (k, b) :: rest =>
    if k = key then (k, change (some b)) :: rest else (k, b) :: alter key change rest

/-- The entries in order. -/
def entries (t : Table κ α) : List α := t.map Prod.snd

theorem find?_insert (key key' : κ) (a : α) (t : Table κ α) :
    (t.insert key a).find? key' = if key = key' then some a else t.find? key' := by
  induction t with
  | nil => simp [insert, find?]
  | cons e rest ih =>
    obtain ⟨k, b⟩ := e
    by_cases h : k = key
    · subst h
      by_cases h' : k = key' <;> simp [insert, find?, h']
    · by_cases h' : k = key'
      · subst h'
        have hk : ¬ key = k := fun e => h e.symm
        simp [insert, find?, h, hk]
      · simp [insert, find?, h, h', ih]

theorem insert_insert (key : κ) (a b : α) (t : Table κ α) :
    (t.insert key a).insert key b = t.insert key b := by
  induction t with
  | nil => simp [insert]
  | cons e rest ih =>
    obtain ⟨k, d⟩ := e
    by_cases h : k = key
    · simp [insert, h]
    · simp [insert, h, ih]

theorem find?_append (key : κ) (t u : Table κ α) :
    find? key (t ++ u) = (find? key t).or (find? key u) := by
  induction t with
  | nil => simp [find?]
  | cons e rest ih =>
    obtain ⟨k, b⟩ := e
    by_cases h : k = key <;> simp [find?, h, ih]

theorem find?_insertNew (key key' : κ) (a : α) (t : Table κ α) :
    (t.insertNew key a).find? key' =
      if key = key' then some ((t.find? key).getD a) else t.find? key' := by
  unfold insertNew has
  cases h : t.find? key with
  | none =>
    by_cases h' : key = key'
    · subst h'
      simp [find?_append, find?, h]
    · simp [find?_append, find?, h']
  | some b =>
    by_cases h' : key = key'
    · subst h'
      simp [h]
    · simp [h']

theorem find?_alter (key key' : κ) (change : Option α → α) (t : Table κ α) :
    (t.alter key change).find? key' =
      if key = key' then some (change (t.find? key)) else t.find? key' := by
  induction t with
  | nil => simp [alter, find?]
  | cons e rest ih =>
    obtain ⟨k, b⟩ := e
    by_cases h : k = key
    · subst h
      by_cases h' : k = key' <;> simp [alter, find?, h']
    · by_cases h' : k = key'
      · subst h'
        have hk : ¬ key = k := fun e => h e.symm
        simp [alter, find?, h, hk]
      · simp [alter, find?, h, h', ih]

/-- What is found under a key is one of the entries. -/
theorem mem_of_find? {key : κ} {a : α} {t : Table κ α} (h : t.find? key = some a) :
    (key, a) ∈ t := by
  induction t with
  | nil => cases h
  | cons e rest ih =>
    rw [find?] at h
    split at h
    · rename_i hkey
      cases hkey
      cases h
      exact List.mem_cons_self
    · exact List.mem_cons_of_mem _ (ih h)

/-- Only what is one of the keys has an entry. -/
theorem has_iff {key : κ} {t : Table κ α} : t.has key ↔ key ∈ t.map Prod.fst := by
  induction t with
  | nil => simp [has, find?]
  | cons e rest ih =>
    obtain ⟨k, b⟩ := e
    by_cases h : k = key
    · simp [has, find?, h]
    · have h' : key ≠ k := fun e => h e.symm
      simpa [has, find?, h, h'] using ih

/-- In a table of different keys it does not matter in which order the entries are. -/
theorem find?_eq_some_iff {key : κ} {a : α} {t : Table κ α} (h : (t.map Prod.fst).Nodup) :
    t.find? key = some a ↔ (key, a) ∈ t := by
  refine ⟨mem_of_find?, fun hmem => ?_⟩
  induction t with
  | nil => cases hmem
  | cons x rest ih =>
    obtain ⟨hfirst, hrest⟩ := List.nodup_cons.mp h
    rcases List.mem_cons.mp hmem with rfl | hmem
    · exact if_pos rfl
    · have hne : x.1 ≠ key := fun heq => hfirst (heq ▸ List.mem_map_of_mem hmem)
      rw [find?, if_neg hne]
      exact ih hrest hmem

end Table

end Concordance
