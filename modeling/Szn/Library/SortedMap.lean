import Mathlib.Data.List.Basic
import Mathlib.Data.List.Pairwise
import Mathlib.Order.Lattice

set_option autoImplicit false

def SortedMap.Ascending {κ ν : Type} [LinearOrder κ] (entries : List (κ × ν)) : Prop :=
  entries.Pairwise fun entry later => entry.1 < later.1

@[ext] structure SortedMap (κ ν : Type) [LinearOrder κ] where
  entries : List (κ × ν)
  ascending : SortedMap.Ascending entries
  deriving DecidableEq

namespace SortedMap

variable {κ ν : Type} [LinearOrder κ]

instance decidableAscending (entries : List (κ × ν)) : Decidable (Ascending entries) :=
  inferInstanceAs (Decidable (entries.Pairwise _))

-- An entry is not inserted where its key is present.
def insertEntry (entry : κ × ν) : List (κ × ν) → List (κ × ν)
  | [] => [entry]
  | first :: rest =>
      if entry.1 < first.1 then entry :: first :: rest
      else if first.1 < entry.1 then first :: insertEntry entry rest
      else first :: rest

theorem mem_insertEntry (entry found : κ × ν) (entries : List (κ × ν))
    (member : found ∈ insertEntry entry entries) : found = entry ∨ found ∈ entries := by
  induction entries with
  | nil => exact Or.inl (List.mem_singleton.mp member)
  | cons first rest ih =>
      rw [insertEntry] at member
      split at member
      · exact List.mem_cons.mp member
      · split at member
        · rcases List.mem_cons.mp member with same | later
          · exact Or.inr (List.mem_cons.mpr (Or.inl same))
          · exact (ih later).imp_right (List.mem_cons_of_mem first)
        · exact Or.inr member

theorem below_all (key : κ) (first : κ × ν) (rest : List (κ × ν)) (below : key < first.1)
    (above : ∀ later ∈ rest, first.1 < later.1) : ∀ later ∈ first :: rest, key < later.1 := by
  intro later member
  rcases List.mem_cons.mp member with rfl | member
  · exact below
  · exact below.trans (above later member)

theorem insertEntry_ascending (entry : κ × ν) (entries : List (κ × ν))
    (ascending : Ascending entries) : Ascending (insertEntry entry entries) := by
  induction entries with
  | nil => exact List.pairwise_singleton _ _
  | cons first rest ih =>
      obtain ⟨above, sorted⟩ := List.pairwise_cons.mp ascending
      rw [insertEntry]
      split
      · next below =>
          exact List.pairwise_cons.mpr ⟨below_all entry.1 first rest below above, ascending⟩
      · split
        · next beyond =>
            refine List.pairwise_cons.mpr ⟨?_, ih sorted⟩
            intro later member
            rcases mem_insertEntry entry later rest member with rfl | member
            · exact beyond
            · exact above later member
        · exact ascending

theorem insertEntry_length (entry : κ × ν) (entries : List (κ × ν)) :
    (insertEntry entry entries).length ≤ entries.length + 1 := by
  induction entries with
  | nil => exact Nat.le_refl 1
  | cons first rest ih =>
      rw [insertEntry]
      split
      · exact Nat.le_refl _
      · split
        · exact Nat.succ_le_succ ih
        · exact Nat.le_succ _

theorem insertEntry_last (entry : κ × ν) (entries : List (κ × ν))
    (above : ∀ present ∈ entries, present.1 < entry.1) :
    insertEntry entry entries = entries ++ [entry] := by
  induction entries with
  | nil => rfl
  | cons first rest ih =>
      have beyond := above first List.mem_cons_self
      rw [insertEntry, if_neg beyond.not_gt, if_pos beyond, ih, List.cons_append]
      intro present member
      exact above present (List.mem_cons_of_mem first member)

theorem lookup_cons_eq (key : κ) (entry : κ × ν) (rest : List (κ × ν)) :
    (entry :: rest).lookup key = if key = entry.1 then some entry.2 else rest.lookup key := by
  obtain ⟨first, value⟩ := entry
  rw [List.lookup_cons]
  by_cases same : key = first
  · simp [same]
  · have other : (key == first) = false := beq_false_of_ne same
    simp [same, other]

theorem lookup_absent (key : κ) (entries : List (κ × ν))
    (above : ∀ entry ∈ entries, key < entry.1) : entries.lookup key = none := by
  rw [List.lookup_eq_none_iff]
  intro entry member
  simpa using (above entry member).ne

theorem lookup_insertEntry (entry : κ × ν) (key : κ) (entries : List (κ × ν))
    (ascending : Ascending entries) :
    (insertEntry entry entries).lookup key = (entries.lookup key).or ([entry].lookup key) := by
  induction entries with
  | nil => rfl
  | cons first rest ih =>
      obtain ⟨above, sorted⟩ := List.pairwise_cons.mp ascending
      rw [insertEntry, lookup_cons_eq key entry]
      split
      · next below =>
          rw [lookup_cons_eq key entry]
          by_cases same : key = entry.1
          · have absent : (first :: rest).lookup key = none := by
              apply lookup_absent
              rw [same]
              exact below_all entry.1 first rest below above
            rw [absent, if_pos same, Option.none_or, if_pos same]
          · simp [same]
      · rw [lookup_cons_eq key first]
        split
        · rw [lookup_cons_eq key first, ih sorted, lookup_cons_eq key entry]
          split
          · rfl
          · rfl
        · next notBelow notBeyond =>
            have same : entry.1 = first.1 :=
              le_antisymm (not_lt.mp notBeyond) (not_lt.mp notBelow)
            rw [lookup_cons_eq key first, same]
            by_cases here : key = first.1
            · simp [here]
            · simp [here]

def empty : SortedMap κ ν := ⟨[], List.Pairwise.nil⟩

def insert (entry : κ × ν) (map : SortedMap κ ν) : SortedMap κ ν :=
  ⟨insertEntry entry map.entries, insertEntry_ascending entry map.entries map.ascending⟩

def insertAll (entries : List (κ × ν)) (map : SortedMap κ ν) : SortedMap κ ν :=
  entries.foldl (fun map entry => map.insert entry) map

def lookup (key : κ) (map : SortedMap κ ν) : Option ν := map.entries.lookup key

theorem lookup_insertAll (entries : List (κ × ν)) (map : SortedMap κ ν) (key : κ) :
    (map.insertAll entries).lookup key = (map.lookup key).or (entries.lookup key) := by
  induction entries generalizing map with
  | nil => exact (Option.or_none).symm
  | cons entry rest ih =>
      have inserted : (map.insert entry).lookup key = (map.lookup key).or ([entry].lookup key) :=
        lookup_insertEntry entry key map.entries map.ascending
      have later := ih (map.insert entry)
      rw [inserted, Option.or_assoc] at later
      rw [insertAll, List.foldl_cons]
      refine later.trans (congrArg _ ?_)
      rw [lookup_cons_eq, lookup_cons_eq]
      split
      · rfl
      · rfl

theorem insertAll_length (entries : List (κ × ν)) (map : SortedMap κ ν) :
    (map.insertAll entries).entries.length ≤ map.entries.length + entries.length := by
  induction entries generalizing map with
  | nil => exact Nat.le_refl _
  | cons entry rest ih =>
      have one : (map.insert entry).entries.length ≤ map.entries.length + 1 :=
        insertEntry_length entry map.entries
      have more : (map.insertAll (entry :: rest)).entries.length ≤
          (map.insert entry).entries.length + rest.length := ih (map.insert entry)
      rw [List.length_cons]
      omega

theorem insertAll_ascending (entries : List (κ × ν)) (map : SortedMap κ ν)
    (ascending : Ascending (map.entries ++ entries)) :
    (map.insertAll entries).entries = map.entries ++ entries := by
  induction entries generalizing map with
  | nil => exact (List.append_nil _).symm
  | cons entry rest ih =>
      have last : (map.insert entry).entries = map.entries ++ [entry] := by
        apply insertEntry_last
        intro present member
        exact (List.pairwise_append.mp ascending).2.2 present member entry List.mem_cons_self
      have later := ih (map.insert entry)
      rw [last, List.append_assoc] at later
      exact later ascending

theorem empty_insertAll_length (entries : List (κ × ν)) :
    (empty.insertAll entries).entries.length ≤ entries.length := by
  have bound := insertAll_length entries empty
  rwa [show (empty : SortedMap κ ν).entries.length = 0 from rfl, Nat.zero_add] at bound

theorem empty_insertAll (map : SortedMap κ ν) : empty.insertAll map.entries = map :=
  SortedMap.ext (insertAll_ascending map.entries empty map.ascending)

end SortedMap
