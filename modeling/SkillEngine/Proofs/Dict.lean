import SkillEngine.Dict
import Mathlib.Data.List.Sort
import Mathlib.Order.Lattice

/-!
# Keys and values of finite maps

What changing one value or every value of a map does to its keys and to what they answer, and the
order of the keys: `Ascending` holds of every map that is built by insertion, and such a map is
determined by its entries in turn.
-/

namespace SkillEngine

namespace Dict

variable {κ ν : Type} [DecidableEq κ]

/-- Changing a value keeps the keys. -/
theorem keys_modify (dict : Dict κ ν) (key : κ) (change : ν → ν) :
    (dict.modify key change).keys = dict.keys := by
  simp only [keys, modify, List.map_map]
  refine List.map_congr_left fun entry _ => ?_
  simp only [Function.comp]
  split <;> rfl

/-- Changing a value into itself changes nothing. -/
theorem modify_same (dict : Dict κ ν) (key : κ) : (dict.modify key fun value => value) = dict := by
  simp [modify]

/-- Changing a value twice. -/
theorem modify_modify (dict : Dict κ ν) (key : κ) (earlier later : ν → ν) :
    (dict.modify key earlier).modify key later = dict.modify key (later ∘ earlier) := by
  simp only [modify, List.map_map]
  refine congrArg mk (List.map_congr_left fun entry _ => ?_)
  by_cases here : entry.1 = key <;> simp [here]

/-- Changing every value changes what every key answers. -/
theorem get?_mapValues {μ : Type} (dict : Dict κ ν) (change : κ → ν → μ) (key : κ) :
    (dict.mapValues change).get? key = (dict.get? key).map (change key) := by
  obtain ⟨entries⟩ := dict
  simp only [get?, mapValues]
  induction entries with
  | nil => rfl
  | cons entry rest ih =>
    by_cases here : key = entry.1
    · subst here
      simp [lookup]
    · simpa [lookup, here] using ih

/-- A key is listed exactly if it has a value. -/
theorem mem_keys_iff (dict : Dict κ ν) (key : κ) : key ∈ dict.keys ↔ (dict.get? key).isSome := by
  obtain ⟨entries⟩ := dict
  simp only [keys, get?]
  induction entries with
  | nil => simp [lookup]
  | cons entry rest ih =>
    by_cases here : key = entry.1
    · simp [lookup, here]
    · simpa [lookup, here] using ih

/-- The map of some entries answers a key with the last entry that has it. -/
theorem get?_ofList [LT κ] [DecidableLT κ] (entries : List (κ × ν)) (key : κ) :
    (ofList entries).get? key =
      (entries.filter fun entry => decide (entry.1 = key)).getLast?.map (·.2) := by
  have fill : ∀ (entries : List (κ × ν)) (dict : Dict κ ν),
      (entries.foldl (fun dict entry => dict.insert entry.1 entry.2) dict).get? key =
        ((entries.filter fun entry => decide (entry.1 = key)).getLast?.map (·.2)).or
          (dict.get? key) := by
    intro entries
    induction entries with
    | nil => exact fun dict => rfl
    | cons entry rest ih =>
      intro dict
      rw [List.foldl_cons, ih, get?_insert, List.filter_cons]
      by_cases here : entry.1 = key
      · rw [if_pos here.symm, if_pos (decide_eq_true here), List.getLast?_cons]
        cases (rest.filter fun entry => decide (entry.1 = key)).getLast? <;> rfl
      · rw [if_neg (Ne.symm here), if_neg (by simpa using here)]
  rw [ofList, fill]
  exact Option.or_none

/-- The map of some entries has the keys of the entries. -/
theorem isSome_ofList [LT κ] [DecidableLT κ] (entries : List (κ × ν)) (key : κ) :
    ((ofList entries).get? key).isSome ↔ key ∈ entries.map (·.1) := by
  rw [get?_ofList, Option.isSome_map, List.getLast?_isSome, List.mem_map]
  simp

/-- The keys are in ascending order, each once. -/
def Ascending {κ : Type} [LT κ] (dict : Dict κ ν) : Prop :=
  dict.entries.Pairwise fun earlier later => earlier.1 < later.1

section Order

variable {κ : Type} [LinearOrder κ]

/-- A placed entry is the new one or was there. -/
theorem mem_place {key : κ} {value : ν} {entries : List (κ × ν)} {entry : κ × ν}
    (member : entry ∈ place key value entries) : entry = (key, value) ∨ entry ∈ entries := by
  induction entries with
  | nil => exact .inl (List.mem_singleton.1 member)
  | cons first rest ih =>
    rw [place] at member
    split at member
    · rcases List.mem_cons.1 member with here | later
      · exact .inl here
      · exact .inr (List.mem_cons_of_mem _ later)
    · split at member
      · exact List.mem_cons.1 member
      · rcases List.mem_cons.1 member with here | later
        · exact .inr (here ▸ List.mem_cons_self)
        · exact (ih later).imp id (List.mem_cons_of_mem _)

/-- Setting a key keeps the keys ascending. -/
theorem Ascending.insert {dict : Dict κ ν} (ascending : dict.Ascending) (key : κ) (value : ν) :
    (dict.insert key value).Ascending := by
  obtain ⟨entries⟩ := dict
  change (place key value entries).Pairwise _
  change entries.Pairwise _ at ascending
  induction entries with
  | nil => exact List.pairwise_singleton _ _
  | cons first rest ih =>
    obtain ⟨below, sorted⟩ := List.pairwise_cons.1 ascending
    rw [place]
    split
    · next same => exact List.pairwise_cons.2 ⟨same ▸ below, sorted⟩
    · next differs =>
      split
      · next smaller =>
        refine List.pairwise_cons.2 ⟨fun entry member => ?_, ascending⟩
        rcases List.mem_cons.1 member with rfl | later
        · exact smaller
        · exact smaller.trans (below entry later)
      · next larger =>
        refine List.pairwise_cons.2 ⟨fun entry member => ?_, ih sorted⟩
        rcases mem_place member with rfl | old
        · exact lt_of_le_of_ne (not_lt.1 larger) (Ne.symm differs)
        · exact below entry old

/-- The map of some entries has its keys ascending. -/
theorem ascending_ofList (entries : List (κ × ν)) : (ofList entries).Ascending := by
  have fill : ∀ (entries : List (κ × ν)) (dict : Dict κ ν), dict.Ascending →
      (entries.foldl (fun dict entry => dict.insert entry.1 entry.2) dict).Ascending := by
    intro entries
    induction entries with
    | nil => exact fun _ ascending => ascending
    | cons entry rest ih => exact fun dict ascending => ih _ (ascending.insert entry.1 entry.2)
  exact fill entries empty List.Pairwise.nil

/-- An entry whose key is above all others is placed last. -/
theorem place_of_above {key : κ} {value : ν} {entries : List (κ × ν)}
    (above : ∀ entry ∈ entries, entry.1 < key) :
    place key value entries = entries ++ [(key, value)] := by
  induction entries with
  | nil => rfl
  | cons first rest ih =>
    have below : first.1 < key := above first List.mem_cons_self
    rw [place, if_neg below.ne', if_neg below.asymm,
      ih fun entry member => above entry (List.mem_cons_of_mem _ member)]
    rfl

/-- The map of the entries of an ascending map is the map. -/
theorem Ascending.ofList_entries {dict : Dict κ ν} (ascending : dict.Ascending) :
    ofList dict.entries = dict := by
  have fill : ∀ later earlier : List (κ × ν),
      (earlier ++ later).Pairwise (fun earlier later => earlier.1 < later.1) →
      later.foldl (fun dict entry => dict.insert entry.1 entry.2) ⟨earlier⟩ =
        (⟨earlier ++ later⟩ : Dict κ ν) := by
    intro later
    induction later with
    | nil => intro earlier _; rw [List.append_nil]; rfl
    | cons entry rest ih =>
      intro earlier sorted
      have above : ∀ old ∈ earlier, old.1 < entry.1 := fun old member =>
        (List.pairwise_append.1 sorted).2.2 old member entry List.mem_cons_self
      have onward := ih (earlier ++ [entry]) (by rwa [List.append_assoc])
      rw [List.append_assoc] at onward
      rw [List.foldl_cons, Dict.insert, place_of_above above]
      exact onward
  exact fill dict.entries [] ascending

/-- Maps of entries with the same keys list them the same. -/
theorem keys_ofList_congr {first second : List (κ × ν)}
    (same : ∀ key, key ∈ second.map (·.1) ↔ key ∈ first.map (·.1)) :
    (ofList second).keys = (ofList first).keys := by
  have ascending (entries : List (κ × ν)) : (ofList entries).keys.Pairwise (· < ·) :=
    List.pairwise_map.2 (ascending_ofList entries)
  refine (ascending second).eq_of_mem_iff (ascending first) fun key => ?_
  rw [mem_keys_iff, mem_keys_iff, isSome_ofList, isSome_ofList, same]

end Order

end Dict

end SkillEngine
