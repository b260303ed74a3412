/-!
# Records

Association lists in insertion order, with distinct keys. Assigning to an existing key keeps its
position and replaces its value.
-/

set_option autoImplicit false

namespace GraphCodec.Assoc

variable {α : Type}

/-- Inserts a binding, or replaces the value of a key in place. -/
def set (key : String) (value : α) : List (String × α) → List (String × α)
  | [] => [(key, value)]
  | (k, v) :: rest => if k = key then (k, value) :: rest else (k, v) :: set key value rest

/-- The record of a list of bindings: the first binding of a key fixes its position, the last one
its value. -/
def ofList (pairs : List (String × α)) : List (String × α) :=
  pairs.foldl (fun acc p => set p.1 p.2 acc) []

/-- The keys, in order. -/
def keys (l : List (String × α)) : List String := l.map (·.1)

theorem lookup_set_self (key : String) (value : α) (l : List (String × α)) :
    (set key value l).lookup key = some value := by
  induction l with
  | nil => simp [set]
  | cons p rest ih =>
    obtain ⟨k, v⟩ := p
    by_cases h : k = key
    · simp [set, h]
    · have h' : (key == k) = false := by simpa using fun e => h e.symm
      simp [set, h, List.lookup_cons, h', ih]

theorem lookup_set_ne {key other : String} (h : other ≠ key) (value : α)
    (l : List (String × α)) : (set key value l).lookup other = l.lookup other := by
  have h' : (other == key) = false := by simpa using h
  induction l with
  | nil => simp [set, List.lookup_cons, h']
  | cons p rest ih =>
    obtain ⟨k, v⟩ := p
    by_cases hk : k = key
    · simp [set, hk, List.lookup_cons, h']
    · simp [set, hk, List.lookup_cons, ih]

@[simp] theorem keys_nil : keys ([] : List (String × α)) = [] := rfl

@[simp] theorem keys_cons (k : String) (v : α) (l : List (String × α)) :
    keys ((k, v) :: l) = k :: keys l := rfl

end GraphCodec.Assoc
