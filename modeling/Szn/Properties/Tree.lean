import Szn.Library.Unrolling
import Szn.Model.Tree
import Szn.Spec.RoundTrip
import Szn.Spec.Source

set_option autoImplicit false

namespace Szn

open Stateful Parsing Tracing Unrolling

theorem Integer.parse_settles (format : Integer)
    (sized : format.defaultBits = 8 * format.byteSize) (bits depth : Nat) (input : List Byte) :
    Settles insufficientInput (fun _ => format.parse (.unsigned bits)) depth input
      (fun value rest => Taken input format.byteSize rest ∧
        value.toNat < 2 ^ (8 * format.byteSize)) := by
  have bytes : Settles insufficientInput (fun _ => repeatN (item insufficientInput) format.byteSize)
      depth input (fun bytes rest => Taken input (bytes.toList.map fun _ => 1).sum rest) :=
    Settles.repeatN (fun _ _ => Settles.item) format.byteSize (Nat.lt_succ_self input.length)
  have taken : Settles insufficientInput (fun _ => format.parse (.unsigned bits)) depth input
      (fun _ rest => Taken input format.byteSize rest) := by
    apply bytes.map
    intro bytes rest taken
    have count : (bytes.toList.map fun _ => 1).sum = format.byteSize := by simp
    rwa [count] at taken
  exact taken.and fun value rest => format.parse_unsigned_lt sized bits input rest value

namespace Tree

variable (P : Platform) (maxSize : Abi → Nat)

theorem height_le_heightOf (children : List Tree) (child : Tree) (member : child ∈ children) :
    child.height ≤ heightOf children := by
  induction children with
  | nil => cases member
  | cons tree rest ih =>
      rw [heightOf]
      rcases List.mem_cons.mp member with rfl | member
      · exact Nat.le_max_left _ _
      · exact (ih member).trans (Nat.le_max_right _ _)

def trace : Nat → Tree → Trace Byte Failure
  | 0, _ => .fail .unrolled
  | depth + 1, node value children =>
      (be64.trace (.unsigned 64) value).andThen
        ((be32.trace (sizeType P) (BitVec.ofNat P.sizeBits children.length)).andThen
          (.all (trace depth) children))

def parse : Nat → Parser Byte Failure Tree
  | 0 => throw Failure.unrolled
  | depth + 1 => do
      let value ← be64.parse (.unsigned 64)
      let size ← be32.parse (sizeType P)
      (Container.vector maxSize).reserving P size.toNat
      let children ← repeatN (parse depth) size.toNat
      pure (node value children.toList)

theorem serialize_replay {σ : Type} (sink : Sink σ) (depth : Nat) (tree : Tree) :
    tree.serialize P maxSize sink depth = (trace P depth tree).replay sink.write := by
  induction depth generalizing tree with
  | zero => exact (Trace.replay_fail _ _).symm
  | succ depth ih =>
      obtain ⟨value, children⟩ := tree
      have element : serialize P maxSize sink depth =
          fun tree => (trace P depth tree).replay sink.write := funext ih
      simp only [serialize, Structure.serialize, fields, Vector.serialize_eq, element,
        Vector.prefixed_replay, Integer.serialize_replay, trace, Trace.replay_andThen,
        bind_assoc, bind_pure_unit]

theorem deserialize_implements {σ : Type} {source : Source σ} {D : Delivery σ Byte}
    (delivers : source.Delivers D) (depth : Nat) :
    Deserializes D (deserialize P maxSize source depth) (fun _ => parse P maxSize depth) := by
  induction depth with
  | zero => exact Implements.throw _
  | succ depth ih =>
      have ends : Deserializes D (pure () : EStateM Failure (σ × Unit) Unit) fun _ => pure () :=
        Implements.pure ()
      have children := Vector.deserialize_implements P delivers be32 (.vector maxSize) ih fresh
      refine (Implements.within (Structure.deserialize_implements
        (be64.deserialize_implements delivers (.unsigned 64))
        (Structure.deserialize_implements children ends))).congr ?_
      intro target
      simp only [bind_assoc, pure_bind, map_eq_pure_bind, parse]
      rfl

theorem cost_sum (children : List Tree) :
    (children.map fun child => 12 * child.nodes).sum = 12 * nodesOf children := by
  induction children with
  | nil => rfl
  | cons tree rest ih => rw [List.map_cons, List.sum_cons, ih, nodesOf, Nat.mul_add]

-- The depth follows the input: a node takes twelve bytes before its children.
theorem parse_settles (reserves : 2 ^ 32 - 1 ≤ maxSize P.toAbi) (depth : Nat) (input : List Byte)
    (inside : input.length < 12 * depth) :
    Settles insufficientInput (parse P maxSize) depth input
      (fun tree rest => Taken input (12 * tree.nodes) rest) := by
  induction depth generalizing input with
  | zero => omega
  | succ depth ih =>
      apply Settles.succ
      apply (Integer.parse_settles be64 rfl 64 depth input).bind
      intro value middle taken
      apply (Integer.parse_settles be32 rfl P.sizeBits depth middle).bind
      intro size later taken32
      have header : Taken input 12 later := taken.1.append taken32.1
      have reserved : (Container.vector maxSize).reserving P size.toNat = pure () := by
        apply Container.reserving_reserves
        have below : size.toNat < 2 ^ 32 := taken32.2
        change size.toNat ≤ maxSize P.toAbi
        omega
      have shorter : later.length < 12 * depth := by
        have present := header.1
        have length := congrArg List.length header.2
        rw [List.length_drop] at length
        omega
      simp only [reserved, pure_bind]
      apply (Settles.repeatN (fun text inside => ih text inside) size.toNat shorter).bind
      intro children rest consumed
      apply Settles.pure
      rw [cost_sum] at consumed
      have whole := header.append consumed
      rwa [show 12 + 12 * nodesOf children.toList = 12 * (node value children.toList).nodes by
        rw [nodes]; omega] at whole

inductive Wide : Tree → Prop where
  | node (value : BitVec 64) (children : List Tree) (counted : children.length < 2 ^ 32)
      (held : children.length < 2 ^ P.sizeBits) (each : ∀ child ∈ children, Wide child) :
      Wide (.node value children)

theorem trace_stable (depth more : Nat) (tree : Tree) (deep : tree.height ≤ depth)
    (deeper : tree.height ≤ more) : trace P depth tree = trace P more tree := by
  induction depth generalizing more tree with
  | zero =>
      obtain ⟨value, children⟩ := tree
      rw [height] at deep
      omega
  | succ depth ih =>
      obtain ⟨value, children⟩ := tree
      rw [height] at deep deeper
      obtain ⟨more, rfl⟩ : ∃ m, more = m + 1 := ⟨more - 1, by omega⟩
      have same : Trace.all (trace P depth) children = Trace.all (trace P more) children := by
        have each (child : Tree) (member : child ∈ children) :
            trace P depth child = trace P more child := by
          have below := height_le_heightOf children child member
          exact ih more child (by omega) (by omega)
        exact Trace.all_congr each
      rw [trace, trace, same]

theorem wide_codes (reserves : 2 ^ 32 - 1 ≤ maxSize P.toAbi) (depth : Nat) (tree : Tree)
    (deep : tree.height ≤ depth) (wide : tree.Wide P) :
    Codes (trace P depth tree) (parse P maxSize depth) tree := by
  induction depth generalizing tree with
  | zero =>
      obtain ⟨value, children⟩ := tree
      rw [height] at deep
      omega
  | succ depth ih =>
      cases wide with
      | node value children counted held each =>
          rw [height] at deep
          have size : (BitVec.ofNat P.sizeBits children.length).toNat = children.length := by
            rw [BitVec.toNat_ofNat, Nat.mod_eq_of_lt held]
          have valueCodes := be64.codes rfl (by decide) (.unsigned 64) value value.isLt
          have sizeCodes := be32.codes rfl (by decide) (sizeType P)
            (BitVec.ofNat P.sizeBits children.length)
            (by
              rw [Integer.Represents, size]
              exact counted)
          have childrenCodes := Codes.all (trace P depth) (parse P maxSize depth)
            (⟨children, rfl⟩ : List.Vector Tree children.length) fun child member => by
              have below := height_le_heightOf children child member
              exact ih child (by omega) (each child member)
          have reserved : (Container.vector maxSize).reserving P children.length = pure () := by
            apply Container.reserving_reserves
            change children.length ≤ maxSize P.toAbi
            omega
          refine valueCodes.andThen (sizeCodes.andThen ?_)
          rw [size, reserved, pure_bind]
          exact childrenCodes.bindPure fun children => node value children.toList

theorem tree_deserialize (reserves : 2 ^ 32 - 1 ≤ maxSize P.toAbi) :
    (∀ {σ : Type} (source : Source σ) (D : Delivery σ Byte) (state : σ) (target : Tree),
      source.Delivers D → D.ready state →
      ∃ depth,
        (∃ tree, 12 * tree.nodes ≤ (D.unread state).length ∧ ∀ n, depth ≤ n →
          ∃ after, deserialize P maxSize source n (state, target) = .ok () (after, tree) ∧
            D.ready after ∧ D.unread after = (D.unread state).drop (12 * tree.nodes)) ∨
        (∀ n, depth ≤ n → ∃ after left, deserialize P maxSize source n (state, target) =
          .error insufficientInput (after, left))) ∧
    (∀ tree : Tree, tree.Wide P →
      ∃ text, (∀ n, tree.height ≤ n →
          tree.serialize P maxSize insertionSink n [] = .ok () text) ∧
        ∀ {σ : Type} (source : Source σ) (D : Delivery σ Byte) (state : σ) (target : Tree)
          (rest : List Byte), source.Delivers D → D.ready state →
          D.unread state = text ++ rest → ∀ n, tree.height ≤ n →
            ∃ after, deserialize P maxSize source n (state, target) = .ok () (after, tree) ∧
              D.ready after ∧ D.unread after = rest) := by
  constructor
  · intro σ source D state target delivers ready
    let depth := (D.unread state).length + 1
    refine ⟨depth, ?_⟩
    rcases parse_settles P maxSize reserves depth (D.unread state) (by omega) with
      ⟨tree, rest, taken, done⟩ | failed
    · left
      refine ⟨tree, taken.1, fun n deep => ?_⟩
      rw [← taken.2]
      exact (deserialize_implements P maxSize delivers n).ok ready (done n deep)
    · right
      intro n deep
      obtain ⟨after, left, failed, -⟩ :=
        (deserialize_implements P maxSize delivers n).error ready (failed n deep)
      exact ⟨after, left, failed⟩
  · intro tree wide
    obtain ⟨text, emits, -⟩ := wide_codes P maxSize reserves tree.height tree (Nat.le_refl _) wide
    refine ⟨text, ?_, ?_⟩
    · intro n deep
      rw [serialize_replay, trace_stable P n tree.height tree deep (Nat.le_refl _)]
      exact (Trace.replay_append_ok _ [] text).mpr ⟨text, emits, rfl⟩
    · intro σ source D state target rest delivers ready unread n deep
      obtain ⟨same, emitsAgain, reads⟩ := wide_codes P maxSize reserves n tree deep wide
      rw [trace_stable P n tree.height tree deep (Nat.le_refl _)] at emitsAgain
      obtain rfl := emits.unique emitsAgain
      apply (deserialize_implements P maxSize delivers n).ok ready
      rw [unread]
      exact reads rest

theorem tree_deserialize_small :
    let tree := node 1 [node 2 [], node 3 []]
    ∃ text, tree.serialize amd64 (2 ^ 32) insertionSink 2 [] = .ok () text ∧
      ∃ after, deserialize amd64 (2 ^ 32) (rangeSource amd64) 2
          (makeRangeSource (text ++ [9]), fresh) = .ok () (after, tree) ∧
        after.range.drop after.position = [9] := by
  intro tree
  have leaf (value : BitVec 64) : (node value []).Wide amd64 :=
    .node value [] (by decide) (by decide) fun child member => absurd member List.not_mem_nil
  have wide : tree.Wide amd64 := by
    apply Wide.node 1 _ (by decide) (by decide)
    intro child member
    simp only [List.mem_cons, List.not_mem_nil, or_false] at member
    rcases member with rfl | rfl <;> exact leaf _
  obtain ⟨text, written, read⟩ := (tree_deserialize amd64 (2 ^ 32) (by decide)).2 tree wide
  refine ⟨text, written 2 (by decide), ?_⟩
  obtain ⟨after, done, -, left⟩ := read (rangeSource amd64) rangeDelivery
    (makeRangeSource (text ++ [9])) fresh [9] (range_delivers amd64) (Nat.zero_le _) rfl 2
      (by decide)
  exact ⟨after, done, left⟩

end Tree

end Szn
