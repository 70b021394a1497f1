import Szn.Spec.Serialize

set_option autoImplicit false

namespace Szn

open Stateful Tracing

theorem overloads_agree (P : Platform) (length : Integer) (small : length.byteSize ≤ 8)
    (F : Format) (sequence : List F.Value)
    (counted : sequence.length < 2 ^ (8 * length.byteSize))
    (held : sequence.length < 2 ^ P.sizeBits) (overload : Vector.Overload F.Value sequence) :
    (∀ {σ : Type} (sink : Sink σ), overload.serialize P length sink (F.serialize P sink) =
      Vector.prefixed P sink length (F.serialize P sink) sequence) ∧
    ∀ text : F.Value → List Byte,
      (∀ value ∈ sequence, F.serialize P insertionSink value [] = .ok () (text value)) →
        ∀ before, overload.serialize P length insertionSink (F.serialize P insertionSink) before =
          .ok () (before ++ length.order.digits length.byteSize sequence.length ++
            sequence.flatMap text) := by
  constructor
  · intro σ sink
    exact overload.serialize_eq P sink length _ held
  · intro text each before
    rw [overload.serialize_eq P insertionSink length _ held,
      show F.serialize P insertionSink = _ from funext (F.serialize_replay P insertionSink),
      ← length.encode_digits small _ _ counted held]
    apply Vector.prefixed_written P length _ text sequence
    intro value member
    have written := each value member
    rw [F.serialize_replay] at written
    obtain ⟨emitted, emits, same⟩ := (Trace.replay_append_ok _ _ _).mp written
    rwa [same]

theorem overloads_agree_pair :
    (Vector.Overload.pair 0x4455 0x6677).serialize amd64 be16 insertionSink
        ((Format.integer ⟨be16, by decide⟩ (.signed 32)).serialize amd64 insertionSink) [] =
      .ok () [0, 2, 0x44, 0x55, 0x66, 0x77] := by
  have agree := (overloads_agree amd64 be16 (by decide)
    (.integer ⟨be16, by decide⟩ (.signed 32)) [0x4455, 0x6677] (by decide) (by decide)
    (.pair _ _)).2 (be16.encode (.signed 32))
  rw [agree fun value _ => be16.serialize_encode amd64 (.signed 32) value []]
  decide

end Szn
