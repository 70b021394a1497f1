import Mathlib.Algebra.GroupWithZero.Nat
import Mathlib.Data.List.Basic

set_option autoImplicit false

-- Equal blocks from the front; what is left behind the last one is dropped.

namespace Blocks

variable {α β : Type}

def blocks (size : Nat) (text : List α) : List (List α) :=
  (List.range (text.length / size)).map fun index => (text.drop (size * index)).take size

theorem blocks_short (size : Nat) (text : List α) (short : text.length < size) :
    blocks size text = [] := by
  rw [blocks, Nat.div_eq_of_lt short]
  rfl

theorem blocks_append (size : Nat) (block rest : List α) (positive : 0 < size)
    (complete : block.length = size) : blocks size (block ++ rest) = block :: blocks size rest := by
  have count : (block ++ rest).length / size = rest.length / size + 1 := by
    rw [List.length_append, complete, Nat.add_div_left _ positive]
  have later (index : Nat) : (block ++ rest).drop (size * (index + 1)) =
      rest.drop (size * index) := by
    rw [Nat.mul_succ, Nat.add_comm, ← List.drop_drop, List.drop_left' complete]
  rw [blocks, count, List.range_succ_eq_map, List.map_cons, List.map_map]
  congr 1
  · rw [Nat.mul_zero, List.drop_zero, List.take_left' complete]
  · apply List.map_congr_left
    intro index _
    rw [Function.comp_apply, Nat.succ_eq_add_one, later]

theorem blocks_of_le (size : Nat) (text : List α) (positive : 0 < size)
    (enough : size ≤ text.length) :
    blocks size text = text.take size :: blocks size (text.drop size) := by
  have complete : (text.take size).length = size := by
    rw [List.length_take, Nat.min_eq_left enough]
  have split := blocks_append size (text.take size) (text.drop size) positive complete
  rwa [List.take_append_drop] at split

theorem blocks_flatten (size : Nat) (parts : List (List α)) (positive : 0 < size)
    (complete : ∀ part ∈ parts, part.length = size) : blocks size parts.flatten = parts := by
  induction parts with
  | nil => exact blocks_short size [] positive
  | cons part rest ih =>
      have each := List.forall_mem_cons.mp complete
      rw [List.flatten_cons, blocks_append size part _ positive each.1, ih each.2]

theorem block_induction (size : Nat) (positive : 0 < size) {motive : List α → Prop}
    (short : ∀ text, text.length < size → motive text)
    (block : ∀ text, size ≤ text.length → motive (text.drop size) → motive text)
    (text : List α) : motive text := by
  by_cases enough : size ≤ text.length
  · have smaller : (text.drop size).length < text.length := by
      rw [List.length_drop]
      omega
    exact block text enough (block_induction size positive short block (text.drop size))
  · exact short text (Nat.not_le.mp enough)
termination_by text.length

theorem length_of_mem_blocks (size : Nat) (text part : List α) (positive : 0 < size)
    (member : part ∈ blocks size text) : part.length = size := by
  induction text using block_induction size positive with
  | short text short =>
      rw [blocks_short size text short] at member
      cases member
  | block text enough ih =>
      rw [blocks_of_le size text positive enough] at member
      rcases List.mem_cons.mp member with rfl | later
      · rw [List.length_take, Nat.min_eq_left enough]
      · exact ih later

theorem flatten_blocks (size : Nat) (text : List α) (positive : 0 < size) :
    (blocks size text).flatten = text.take (size * (text.length / size)) := by
  induction text using block_induction size positive with
  | short text short =>
      rw [blocks_short size text short, Nat.div_eq_of_lt short]
      rfl
  | block text enough ih =>
      have count : size * (text.length / size) =
          size + size * ((text.drop size).length / size) := by
        have one : text.length / size = (text.length - size) / size + 1 :=
          Nat.div_eq_sub_div positive enough
        rw [List.length_drop, one, Nat.mul_succ, Nat.add_comm]
      rw [blocks_of_le size text positive enough, List.flatten_cons, ih, count,
        List.take_add]

def onBlocks (size : Nat) (f : List α → List β) (text : List α) : List β :=
  ((blocks size text).map f).flatten

theorem onBlocks_of_le (size : Nat) (f : List α → List β) (text : List α) (positive : 0 < size)
    (enough : size ≤ text.length) :
    onBlocks size f text = f (text.take size) ++ onBlocks size f (text.drop size) := by
  rw [onBlocks, blocks_of_le size text positive enough, List.map_cons, List.flatten_cons]
  rfl

theorem onBlocks_short (size : Nat) (f : List α → List β) (text : List α)
    (short : text.length < size) : onBlocks size f text = [] := by
  rw [onBlocks, blocks_short size text short]
  rfl

theorem onBlocks_length_le (size : Nat) (f : List α → List β) (text : List α)
    (positive : 0 < size) (keeps : ∀ part, (f part).length = part.length) :
    (onBlocks size f text).length ≤ text.length := by
  induction text using block_induction size positive with
  | short text short => simp [onBlocks_short size f text short]
  | block text enough ih =>
      rw [onBlocks_of_le size f text positive enough, List.length_append, keeps, List.length_take]
      rw [List.length_drop] at ih
      omega

theorem onBlocks_onBlocks {γ : Type} (size : Nat) (f : List α → List β) (g : List β → List γ)
    (positive : 0 < size) (keeps : ∀ part, (f part).length = part.length) (text : List α) :
    onBlocks size g (onBlocks size f text) = onBlocks size (g ∘ f) text := by
  have complete : ∀ part ∈ (blocks size text).map f, part.length = size := by
    intro part member
    obtain ⟨before, inside, rfl⟩ := List.mem_map.mp member
    rw [keeps, length_of_mem_blocks size text before positive inside]
  rw [onBlocks, onBlocks, blocks_flatten size _ positive complete, List.map_map]
  rfl

end Blocks
