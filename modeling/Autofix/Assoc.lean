/-! Finite maps as lists of entries, in the order in which their keys first came. -/
namespace Autofix

abbrev Assoc (κ α : Type) := List (κ × α)

namespace Assoc
variable {κ α : Type} [DecidableEq κ]

def get? (k : κ) : Assoc κ α → Option α
  | [] => none
  | (l, a) :: rest => if k = l then some a else get? k rest

/-- The map with the value of a key set; a new key comes last. -/
def insert (k : κ) (a : α) : Assoc κ α → Assoc κ α
  | [] => [(k, a)]
  | (l, b) :: rest => if k = l then (l, a) :: rest else (l, b) :: insert k a rest

/-- The map without the keys that satisfy `drop`. -/
def eraseIf (drop : κ → Bool) (m : Assoc κ α) : Assoc κ α := m.filter fun e => !drop e.1

def keys (m : Assoc κ α) : List κ := m.map Prod.fst

@[simp] theorem get?_nil (k : κ) : get? k ([] : Assoc κ α) = none := rfl

@[simp] theorem get?_insert_self (k : κ) (a : α) (m : Assoc κ α) : get? k (insert k a m) = some a := by
  induction m with
  | nil => simp [insert, get?]
  | cons e rest ih =>
    obtain ⟨l, b⟩ := e
    by_cases h : k = l <;> simp [insert, get?, h, ih]

theorem get?_insert_of_ne {k l : κ} (h : l ≠ k) (a : α) (m : Assoc κ α) :
    get? l (insert k a m) = get? l m := by
  induction m with
  | nil => simp [insert, get?, h]
  | cons e rest ih =>
    obtain ⟨j, b⟩ := e
    by_cases hk : k = j
    · subst hk
      simp [insert, get?, h]
    · by_cases hl : l = j <;> simp [insert, get?, hk, hl, ih]

theorem get?_insert (k l : κ) (a : α) (m : Assoc κ α) :
    get? l (insert k a m) = if l = k then some a else get? l m := by
  by_cases h : l = k
  · subst h
    simp
  · simp [h, get?_insert_of_ne h]

theorem insert_insert (k : κ) (a b : α) (m : Assoc κ α) : insert k a (insert k b m) = insert k a m := by
  induction m with
  | nil => simp [insert]
  | cons e rest ih =>
    obtain ⟨l, x⟩ := e
    by_cases h : k = l <;> simp [insert, h, ih]

end Assoc
end Autofix
