/-!
# Finite maps in key order

A `Dict` keeps its entries in ascending key order, so a listing of it is canonical. The three
look-up laws say what inserting, erasing and changing an entry do to `get?`; nothing else about the
layout is needed to reason about a map.
-/

namespace SkillEngine

/-- A finite map, its entries in ascending key order. -/
structure Dict (κ ν : Type) where
  /-- The entries. -/
  entries : List (κ × ν)
  deriving Inhabited

namespace Dict

variable {κ ν : Type}

/-- The map without entries. -/
def empty : Dict κ ν := ⟨[]⟩

variable [DecidableEq κ]

/-- The value of the first of some entries that has a key. -/
def lookup (key : κ) : List (κ × ν) → Option ν
  | [] => none
  | (other, value) :: rest => if key = other then some value else lookup key rest

/-- The value at a key. -/
def get? (dict : Dict κ ν) (key : κ) : Option ν := lookup key dict.entries

/-- The key has a value. -/
def contains (dict : Dict κ ν) (key : κ) : Bool := (dict.get? key).isSome

/-- The keys, ascending. -/
def keys (dict : Dict κ ν) : List κ := dict.entries.map (·.1)

/-- The values, by ascending key. -/
def values (dict : Dict κ ν) : List ν := dict.entries.map (·.2)

/-- The number of entries. -/
def size (dict : Dict κ ν) : Nat := dict.entries.length

/-- Some entries with one key set: an equal key is replaced, a new one goes before the first
larger key. -/
def place [LT κ] [DecidableLT κ] (key : κ) (value : ν) : List (κ × ν) → List (κ × ν)
  | [] => [(key, value)]
  | (other, old) :: rest =>
    if key = other then (key, value) :: rest
    else if key < other then (key, value) :: (other, old) :: rest
    else (other, old) :: place key value rest

/-- The map with one key set. -/
def insert [LT κ] [DecidableLT κ] (dict : Dict κ ν) (key : κ) (value : ν) : Dict κ ν :=
  ⟨place key value dict.entries⟩

/-- The map of some entries, of equal keys the last. -/
def ofList [LT κ] [DecidableLT κ] (entries : List (κ × ν)) : Dict κ ν :=
  entries.foldl (fun dict entry => dict.insert entry.1 entry.2) empty

/-- The map without a key. -/
def erase (dict : Dict κ ν) (key : κ) : Dict κ ν :=
  ⟨dict.entries.filter fun entry => !decide (entry.1 = key)⟩

/-- The map with the value at a key changed, if there is one. -/
def modify (dict : Dict κ ν) (key : κ) (change : ν → ν) : Dict κ ν :=
  ⟨dict.entries.map fun entry => if entry.1 = key then (entry.1, change entry.2) else entry⟩

/-- The map with every value changed. -/
def mapValues {μ : Type} (dict : Dict κ ν) (change : κ → ν → μ) : Dict κ μ :=
  ⟨dict.entries.map fun entry => (entry.1, change entry.1 entry.2)⟩

/-- Looking up among placed entries. -/
theorem lookup_place [LT κ] [DecidableLT κ] (key other : κ) (value : ν) (entries : List (κ × ν)) :
    lookup other (place key value entries) =
      if other = key then some value else lookup other entries := by
  induction entries with
  | nil => simp [place, lookup]
  | cons entry rest ih =>
    obtain ⟨first, old⟩ := entry
    simp only [place]
    split
    · next same => subst same; by_cases h : other = key <;> simp [lookup, h]
    · next differs =>
      split
      · simp [lookup]
      · by_cases h : other = first
        · subst h
          have : other ≠ key := fun same => differs same.symm
          simp [lookup, this]
        · simp [lookup, h, ih]

/-- A map answers a set key with its value and every other key as before. -/
theorem get?_insert [LT κ] [DecidableLT κ] (dict : Dict κ ν) (key other : κ) (value : ν) :
    (dict.insert key value).get? other = if other = key then some value else dict.get? other :=
  lookup_place key other value dict.entries

/-- An erased key is gone and every other key answers as before. -/
theorem get?_erase (dict : Dict κ ν) (key other : κ) :
    (dict.erase key).get? other = if other = key then none else dict.get? other := by
  obtain ⟨entries⟩ := dict
  simp only [get?, erase]
  induction entries with
  | nil => simp [lookup]
  | cons entry rest ih =>
    by_cases first : entry.1 = key
    · by_cases same : other = key
      · simpa [first, same] using ih
      · have : other ≠ entry.1 := fun e => same (e.trans first)
        simpa [lookup, first, same, this] using ih
    · by_cases here : other = entry.1
      · simp [lookup, first, here]
      · simpa [lookup, first, here] using ih

/-- Changing an entry changes what its key answers and nothing else. -/
theorem get?_modify (dict : Dict κ ν) (key other : κ) (change : ν → ν) :
    (dict.modify key change).get? other =
      if other = key then (dict.get? other).map change else dict.get? other := by
  obtain ⟨entries⟩ := dict
  simp only [get?, modify]
  induction entries with
  | nil => simp [lookup]
  | cons entry rest ih =>
    by_cases first : entry.1 = key
    · by_cases same : other = key
      · simp [lookup, first, same]
      · have : other ≠ entry.1 := fun e => same (e.trans first)
        simpa [lookup, first, same, this] using ih
    · by_cases here : other = entry.1
      · have : other ≠ key := fun e => first (here ▸ e)
        simp [lookup, first, here]
      · simpa [lookup, first, here] using ih

end Dict

end SkillEngine
