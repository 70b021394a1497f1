import Mathlib.Data.List.Perm.Subperm
import Szn.Library.SortedMap

set_option autoImplicit false

structure SetContainer (α τ : Type) where
  empty : τ
  insert : α → τ → τ
  elements : τ → List α

namespace SetContainer

variable {α τ : Type}

structure Lawful (S : SetContainer α τ) : Prop where
  empty_elements : S.elements S.empty = []
  once : ∀ s, (S.elements s).Nodup
  mem_insert : ∀ e s x, x ∈ S.elements (S.insert e s) ↔ x = e ∨ x ∈ S.elements s

variable (S : SetContainer α τ)

def insertAll (entries : List α) (s : τ) : τ := entries.foldl (fun s e => S.insert e s) s

def Same (s other : τ) : Prop := ∀ x, x ∈ S.elements s ↔ x ∈ S.elements other

variable {S} (lawful : S.Lawful)

include lawful

theorem mem_insertAll (entries : List α) (s : τ) (x : α) :
    x ∈ S.elements (S.insertAll entries s) ↔ x ∈ S.elements s ∨ x ∈ entries := by
  induction entries generalizing s with
  | nil => simp [insertAll]
  | cons e rest ih =>
      have later := ih (S.insert e s)
      rw [lawful.mem_insert] at later
      rw [List.mem_cons]
      refine later.trans ?_
      tauto

theorem mem_filled (entries : List α) (x : α) :
    x ∈ S.elements (S.insertAll entries S.empty) ↔ x ∈ entries := by
  rw [mem_insertAll lawful, lawful.empty_elements]
  simp

theorem filled_length (entries : List α) :
    (S.elements (S.insertAll entries S.empty)).length ≤ entries.length :=
  (List.subperm_of_subset (lawful.once _)
    fun x member => (mem_filled lawful entries x).mp member).length_le

theorem refilled (s : τ) : S.Same (S.insertAll (S.elements s) S.empty) s :=
  mem_filled lawful (S.elements s)

end SetContainer

namespace SortedMap

variable {κ : Type} [LinearOrder κ]

def keys : SetContainer κ (SortedMap κ Unit) where
  empty := empty
  insert key map := map.insert (key, ())
  elements map := map.entries.map Prod.fst

theorem mem_keys_insertEntry (key found : κ) (entries : List (κ × Unit)) :
    found ∈ (insertEntry (key, ()) entries).map Prod.fst ↔
      found = key ∨ found ∈ entries.map Prod.fst := by
  induction entries with
  | nil => simp [insertEntry]
  | cons first rest ih =>
      rw [insertEntry]
      split
      · simp
      · split
        · rw [List.map_cons, List.mem_cons, ih, List.map_cons, List.mem_cons]
          tauto
        · next notBelow notBeyond =>
            have same : key = first.1 := le_antisymm (not_lt.mp notBeyond) (not_lt.mp notBelow)
            rw [List.map_cons, List.mem_cons, same]
            tauto

theorem keys_lawful : (keys : SetContainer κ _).Lawful where
  empty_elements := rfl
  once map := by
    refine List.Pairwise.map Prod.fst (fun entry later below => ?_) map.ascending
    exact below.ne
  mem_insert key map found := mem_keys_insertEntry key found map.entries

end SortedMap
