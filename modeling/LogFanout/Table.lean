/- Tables: what a few names or numbers stand for.

   A table is a list of keys with values, in the order in which the keys were first put. Putting a key again replaces its
   value. The lemmas say what each operation does to `get?`; nothing else about a table matters. -/
namespace LogFanout

/-- Keys with values, in the order in which the keys were first put. -/
structure Table (κ α : Type) where
  entries : List (κ × α)
  deriving Repr

namespace Table

variable {κ α : Type} [DecidableEq κ]

def empty : Table κ α := ⟨[]⟩

/-- The value of the first entry with a key. -/
def find (k : κ) : List (κ × α) → Option α
  | [] => none
  | (k', v) :: rest => if k' = k then some v else find k rest

/-- Entries in which the first one with a key has a new value; the key comes last if it is new. -/
def replace (k : κ) (v : α) : List (κ × α) → List (κ × α)
  | [] => [(k, v)]
  | (k', v') :: rest => if k' = k then (k', v) :: rest else (k', v') :: replace k v rest

def get? (t : Table κ α) (k : κ) : Option α := find k t.entries

def put (t : Table κ α) (k : κ) (v : α) : Table κ α := ⟨replace k v t.entries⟩

def erase (t : Table κ α) (k : κ) : Table κ α := ⟨t.entries.filter fun e => decide (e.1 ≠ k)⟩

def values (t : Table κ α) : List α := t.entries.map Prod.snd

/-! ## What a look-up finds -/

@[simp] theorem get?_empty (k : κ) : (empty : Table κ α).get? k = none := rfl

theorem find_replace (k j : κ) (v : α) (l : List (κ × α)) :
    find j (replace k v l) = if k = j then some v else find j l := by
  induction l with
  | nil => simp [replace, find]
  | cons e rest ih =>
    obtain ⟨k', v'⟩ := e
    by_cases hk : k' = k
    · subst hk
      by_cases hj : k' = j <;> simp [replace, find, hj]
    · by_cases hj : k' = j
      · subst hj
        simp [replace, find, hk, Ne.symm hk]
      · simp [replace, find, hk, hj, ih]

theorem get?_put (t : Table κ α) (k j : κ) (v : α) : (t.put k v).get? j = if k = j then some v else t.get? j :=
  find_replace k j v t.entries

theorem find_filter_ne (k j : κ) (l : List (κ × α)) :
    find j (l.filter fun e => decide (e.1 ≠ k)) = if k = j then none else find j l := by
  induction l with
  | nil => simp [find]
  | cons e rest ih =>
    obtain ⟨k', v'⟩ := e
    by_cases hk : k' = k
    · subst hk
      by_cases hj : k' = j
      · subst hj
        simpa [List.filter, find] using ih
      · simp only [ne_eq, not_true_eq_false, decide_false, Bool.false_eq_true, not_false_eq_true,
          List.filter_cons_of_neg, find, hj, if_false]
        simpa [hj] using ih
    · by_cases hj : k' = j
      · subst hj
        simp [find, hk, Ne.symm hk]
      · simp only [ne_eq, hk, not_false_eq_true, decide_true, List.filter_cons_of_pos, find, hj, if_false]
        simpa using ih

theorem get?_erase (t : Table κ α) (k j : κ) : (t.erase k).get? j = if k = j then none else t.get? j :=
  find_filter_ne k j t.entries

end Table
end LogFanout
