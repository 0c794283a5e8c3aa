/-
Entries under keys, in the order in which the keys first came. Putting
an entry under a known key replaces the old one where it stands.
-/

namespace Unformat

/-- Entries under keys, in order. -/
abbrev Keyed (κ ν : Type) := List (κ × ν)

namespace Keyed

variable {κ ν : Type} [DecidableEq κ]

/-- The entry under a key. -/
def find? (key : κ) : Keyed κ ν → Option ν
  | [] => none
  | (k, v) :: rest => if k = key then some v else find? key rest

/-- The entries with `v` under a key. -/
def put (key : κ) (v : ν) : Keyed κ ν → Keyed κ ν
  | [] => [(key, v)]
  | (k, w) :: rest => if k = key then (k, v) :: rest else (k, w) :: put key v rest

/-- The keys, in order. -/
def keys (entries : Keyed κ ν) : List κ :=
  entries.map Prod.fst

@[simp] theorem find?_put_self (key : κ) (v : ν) (entries : Keyed κ ν) :
    find? key (put key v entries) = some v := by
  induction entries with
  | nil => simp [put, find?]
  | cons e rest ih =>
      obtain ⟨k, w⟩ := e
      by_cases hk : k = key
      · simp [put, find?, hk]
      · simp [put, find?, hk, ih]

theorem find?_put_of_ne {key other : κ} (h : other ≠ key) (v : ν) (entries : Keyed κ ν) :
    find? other (put key v entries) = find? other entries := by
  induction entries with
  | nil => simp [put, find?, h.symm]
  | cons e rest ih =>
      obtain ⟨k, w⟩ := e
      by_cases hk : k = key
      · subst hk
        simp [put, find?, h.symm]
      · by_cases ho : k = other
        · subst ho
          simp [put, find?, h]
        · simp [put, find?, hk, ho, ih]

end Keyed

end Unformat
