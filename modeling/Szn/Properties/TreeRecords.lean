import Szn.Properties.Tree
import Szn.Spec.Layout

set_option autoImplicit false

namespace Szn

open Stateful Parsing Tracing

namespace Tree

variable (P : Platform) (maxSize : Abi → Nat)

mutual

def records : Tree → List (BitVec 64 × Nat)
  | node value children => (value, children.length) :: recordsOf children

def recordsOf : List Tree → List (BitVec 64 × Nat)
  | [] => []
  | tree :: rest => tree.records ++ recordsOf rest

end

def record (fields : BitVec 64 × Nat) : List Byte :=
  ByteOrder.bigEndian.digits 8 fields.1.toNat ++ ByteOrder.bigEndian.digits 4 fields.2

def layout (tree : Tree) : List Byte := tree.records.flatMap record

theorem recordsOf_layout (children : List Tree) :
    (recordsOf children).flatMap record = children.flatMap layout := by
  induction children with
  | nil => rfl
  | cons child rest ih => rw [recordsOf, List.flatMap_append, ih, List.flatMap_cons, layout]

theorem layout_node (value : BitVec 64) (children : List Tree) :
    (node value children).layout =
      record (value, children.length) ++ children.flatMap layout := by
  rw [layout, records, List.flatMap_cons, recordsOf_layout]

mutual

theorem visit_records : (tree : Tree) → tree.visit = tree.records.map Prod.fst
  | node value children => by
      rw [visit, records, List.map_cons, acceptChildren_records children]

theorem acceptChildren_records :
    (children : List Tree) → acceptChildren children = (recordsOf children).map Prod.fst
  | [] => rfl
  | child :: rest => by
      rw [acceptChildren, recordsOf, List.map_append, visit_records child,
        acceptChildren_records rest]

end

theorem trace_layout (depth : Nat) (tree : Tree) (deep : tree.height ≤ depth)
    (wide : tree.Wide P) : (trace P depth tree).Emits tree.layout := by
  induction depth generalizing tree with
  | zero =>
      obtain ⟨value, children⟩ := tree
      rw [height] at deep
      omega
  | succ depth ih =>
      cases wide with
      | node value children counted held each =>
          rw [height] at deep
          have valueEmits := be64.trace_emits (.unsigned 64) value
          have valueDigits := be64.encode_digits (by decide) value.toNat 64 value.isLt value.isLt
          have sizeEmits := be32.trace_emits (sizeType P) (BitVec.ofNat P.sizeBits children.length)
          have sizeDigits :=
            be32.encode_digits (by decide) children.length P.sizeBits counted held
          rw [BitVec.ofNat_toNat, BitVec.setWidth_eq] at valueDigits
          rw [valueDigits] at valueEmits
          rw [sizeDigits] at sizeEmits
          have childrenEmits := Trace.Emits.all (trace P depth) layout children
            fun child member => by
              have below := height_le_heightOf children child member
              exact ih child (by omega) (each child member)
          have whole := valueEmits.andThen (sizeEmits.andThen childrenEmits)
          rw [← List.append_assoc] at whole
          rw [layout_node]
          exact whole

theorem parse_layout (wideSize : 32 ≤ P.sizeBits) (reserves : 2 ^ 32 - 1 ≤ maxSize P.toAbi)
    (depth : Nat) (input rest : List Byte) (tree : Tree)
    (parsed : (parse P maxSize depth).run input = .ok (tree, rest)) :
    input = tree.layout ++ rest := by
  induction depth generalizing input rest tree with
  | zero => cases parsed
  | succ depth ih =>
      obtain ⟨value, later, readValue, parsed⟩ := (run_bind_ok _ _ _ _ _).mp parsed
      obtain ⟨size, later', readSize, parsed⟩ := (run_bind_ok _ _ _ _ _).mp parsed
      obtain ⟨-, whole⟩ := ((be64.recognizes (by decide)).ok_iff _ _ _).mp readValue
      obtain ⟨bytes, complete, whole', -⟩ := be32.parse_ok _ _ _ _ readSize
      obtain ⟨number, inside, rfl⟩ := be32.digits_of_bytes bytes complete
      have held : number < 2 ^ P.sizeBits :=
        inside.trans_le (Nat.pow_le_pow_right Nat.two_pos wideSize)
      rw [whole', be32.parse_digits (by decide) number inside P.sizeBits] at readSize
      obtain ⟨rfl, -⟩ := Prod.mk.inj (Except.ok.inj readSize)
      rw [BitVec.toNat_ofNat, Nat.mod_eq_of_lt held,
        (Container.vector maxSize).reserving_reserves P number (by
          change number ≤ maxSize P.toAbi
          have below : number < 2 ^ 32 := inside
          omega), pure_bind] at parsed
      obtain ⟨children, middle, readChildren, done⟩ := (run_bind_ok _ _ _ _ _).mp parsed
      cases done
      have texts := repeatN_texts (fun input tree rest => ih input rest tree) number _ _ _
        readChildren
      rw [whole, whole', texts, layout_node, record, children.toList_length]
      simp only [List.append_assoc]
      rfl

theorem tree_records (wideSize : 32 ≤ P.sizeBits) (reserves : 2 ^ 32 - 1 ≤ maxSize P.toAbi) :
    (∀ (tree : Tree) (depth : Nat) (before : List Byte), tree.Wide P → tree.height ≤ depth →
      tree.serialize P maxSize insertionSink depth before =
        .ok () (before ++ tree.records.flatMap record)) ∧
    (∀ {σ : Type} (source : Source σ) (D : Delivery σ Byte) (state after : σ)
      (target tree : Tree) (depth : Nat), source.Delivers D → D.ready state →
      deserialize P maxSize source depth (state, target) = .ok () (after, tree) →
        D.unread state = tree.records.flatMap record ++ D.unread after) ∧
    ∀ tree : Tree, tree.visit = tree.records.map Prod.fst := by
  refine ⟨?_, ?_, visit_records⟩
  · intro tree depth before wide deep
    rw [serialize_replay]
    exact (Trace.replay_append_ok _ _ _).mpr ⟨_, trace_layout P depth tree deep wide, rfl⟩
  · intro σ source D state after target tree depth delivers ready done
    have parsed := (deserialize_implements P maxSize delivers depth).parsed ready done
    exact parse_layout P maxSize wideSize reserves depth _ _ _ parsed

theorem tree_records_small :
    let tree := node 1 [node 2 [], node 3 []]
    tree.serialize amd64 (2 ^ 32) insertionSink 2 [] =
      .ok () ([] ++ tree.records.flatMap record) := by
  intro tree
  have leaf (value : BitVec 64) : (node value []).Wide amd64 :=
    .node value [] (by decide) (by decide) fun child member => absurd member List.not_mem_nil
  have wide : tree.Wide amd64 := by
    apply Wide.node 1 _ (by decide) (by decide)
    intro child member
    simp only [List.mem_cons, List.not_mem_nil, or_false] at member
    rcases member with rfl | rfl <;> exact leaf _
  exact (tree_records amd64 (2 ^ 32) (by decide) (by decide)).1 tree 2 [] wide (by decide)

end Tree

end Szn
