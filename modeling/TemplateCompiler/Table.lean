/-! Tables that keep the order in which their keys first arrived. Writing to a key
that is present changes its value and moves nothing. -/
namespace TemplateCompiler

/-- Pairs of keys and values, no key twice. -/
structure Table (κ : Type) (α : Type) where
  entries : List (κ × α)
  nodup : (entries.map Prod.fst).Nodup

namespace Table
variable {κ α : Type}

def empty : Table κ α := ⟨[], by simp⟩

instance : Inhabited (Table κ α) := ⟨empty⟩

def keys (t : Table κ α) : List κ := t.entries.map Prod.fst

def values (t : Table κ α) : List α := t.entries.map Prod.snd

def size (t : Table κ α) : Nat := t.entries.length

def isEmpty (t : Table κ α) : Bool := t.entries.isEmpty

/-- The entries that satisfy a test, in their order. -/
def filter (t : Table κ α) (keep : κ × α → Bool) : Table κ α where
  entries := t.entries.filter keep
  nodup := t.nodup.sublist (List.filter_sublist.map _)

variable [DecidableEq κ]

def get? (t : Table κ α) (k : κ) : Option α := t.entries.lookup k

def contains (t : Table κ α) (k : κ) : Bool := (t.get? k).isSome

/-- Replace the value at the first occurrence of a key, or add the key at the end. -/
def put (k : κ) (a : α) : List (κ × α) → List (κ × α)
  | [] => [(k, a)]
  | entry :: rest => if entry.1 = k then (k, a) :: rest else entry :: put k a rest

theorem map_fst_put (k : κ) (a : α) (entries : List (κ × α)) :
    (put k a entries).map Prod.fst =
      if k ∈ entries.map Prod.fst then entries.map Prod.fst else entries.map Prod.fst ++ [k] := by
  induction entries with
  | nil => rfl
  | cons entry rest ih =>
    by_cases hKey : entry.1 = k
    · simp [put, hKey]
    · simp only [put, hKey, if_false, List.map_cons, ih, List.mem_cons, Ne.symm hKey, false_or]
      split <;> simp

def insert (t : Table κ α) (k : κ) (a : α) : Table κ α where
  entries := put k a t.entries
  nodup := by
    rw [map_fst_put]
    split
    · exact t.nodup
    · rename_i hNew
      refine List.nodup_append.mpr ⟨t.nodup, by simp, ?_⟩
      intro x hx y hy
      simp only [List.mem_singleton] at hy
      rintro rfl
      exact hNew (hy ▸ hx)

/-- Remove a key and its value. -/
def erase (t : Table κ α) (k : κ) : Table κ α := t.filter fun entry => entry.1 ≠ k

/-- Later pairs win over earlier ones with the same key. -/
def ofList (pairs : List (κ × α)) : Table κ α :=
  pairs.foldl (fun t pair => t.insert pair.1 pair.2) empty

end Table
end TemplateCompiler
