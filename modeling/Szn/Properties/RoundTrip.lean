import Szn.Model.ReaderWriter
import Szn.Spec.RoundTrip
import Szn.Spec.Source

set_option autoImplicit false

namespace Szn

open Stateful Parsing Tracing

variable (P : Platform)

namespace Reader

def parse : List Format → Parser Byte Failure (List Item)
  | [] => pure []
  | F :: rest => do
      let first ← F.parse P
      let others ← parse rest
      pure (⟨F, first⟩ :: others)

theorem values_implements {σ τ : Type} {source : Source σ} {D : Delivery σ Byte}
    (delivers : source.Delivers D) (formats : List Format) :
    Implements D (Reader.values P source formats : EStateM Failure (σ × τ) (List Item))
      (fun target => do
        let items ← Reader.parse P formats
        pure (items, target)) := by
  induction formats with
  | nil => exact Implements.pure []
  | cons F rest ih =>
      refine (Implements.bind (Implements.withLocal (F.deserialize_implements P delivers))
        fun first => Implements.bind ih fun others =>
          Implements.pure (⟨F, first⟩ :: others)).congr ?_
      intro target
      simp [Reader.parse, Format.parse]

end Reader

theorem items_code (items : List Item) (fits : ∀ item ∈ items, item.1.Fits P item.2) :
    Codes (.all (fun item => item.1.trace P item.2) items)
      (Reader.parse P (items.map Sigma.fst)) items := by
  induction items with
  | nil => exact Codes.empty []
  | cons item rest ih =>
      have first := item.1.fits_codes P item.2 (fits item (by simp))
      have others := ih fun other member => fits other (by simp [member])
      exact first.andThen (others.bindPure fun others => item :: others)

theorem writer_emits (items : List Item) (before text : List Byte)
    (emits : (Trace.all (fun item : Item => item.1.trace P item.2) items).Emits text) :
    Writer.values P insertionSink items before = .ok () (before ++ text) := by
  have replayed : Writer.values P insertionSink items =
      (Trace.all (fun item : Item => item.1.trace P item.2) items).replay insertionSink.write := by
    rw [Trace.replay_all]
    exact congrArg (List.forM items) (funext fun item => item.1.serialize_replay P _ item.2)
  rw [replayed]
  exact (Trace.replay_append_ok _ _ _).mpr ⟨text, emits, rfl⟩

theorem serialize_deserialize :
    (∀ (F : Format) (value : F.Value), F.Fits P value →
      ∃ text, F.serialize P insertionSink value [] = .ok () text ∧
        ∀ {σ : Type} (source : Source σ) (D : Delivery σ Byte) (state : σ) (target : F.Value)
          (rest : List Byte), source.Delivers D → D.ready state →
          D.unread state = text ++ rest → F.Blank target →
          ∃ after, F.deserialize P source (state, target) = .ok () (after, value) ∧
            D.ready after ∧ D.unread after = rest) ∧
    (∀ items : List Item, (∀ item ∈ items, item.1.Fits P item.2) →
      ∃ text, Writer.values P insertionSink items [] = .ok () text ∧
        ∀ {σ : Type} (source : Source σ) (D : Delivery σ Byte) (state : σ) (rest : List Byte),
          source.Delivers D → D.ready state → D.unread state = text ++ rest →
          ∃ after, Reader.values P source (items.map Sigma.fst) (state, ()) =
              .ok items (after, ()) ∧
            D.ready after ∧ D.unread after = rest) := by
  constructor
  · intro F value fits
    obtain ⟨text, emits, reads⟩ := F.fits_codes P value fits
    refine ⟨text, F.serialize_emits P value [] text emits, ?_⟩
    intro σ source D state target rest delivers ready unread blank
    exact F.deserialize_reads P delivers target value state text rest ready unread blank reads
  · intro items fits
    obtain ⟨text, emits, reads⟩ := items_code P items fits
    refine ⟨text, writer_emits P items [] text emits, ?_⟩
    intro σ source D state rest delivers ready unread
    apply (Reader.values_implements P delivers (items.map Sigma.fst)).ok ready
    rw [unread, run_bind_of_ok _ _ _ _ _ (reads rest)]
    rfl

def le16 : IntegerFormat := ⟨⟨2, .littleEndian⟩, by decide⟩

-- A signed number, then a string of optional pairs, then a pointer to a number.
def sample : Item where
  fst := .structureOf [.integer le16 (.signed 32),
    .vector .list ⟨be8, by decide⟩
      (.optional .boolean (.pair .secondFirst (.integer le16 le16.defaultType)
        (.boolean (.booleanNot .boolean)))),
    .uniquePtr (.integer ⟨be64, by decide⟩ (.unsigned 64))]
  snd := ((-2 : BitVec 32), [some ((513 : BitVec 16), true), none], some (5 : BitVec 64), ())

theorem serialize_deserialize_sample :
    ∃ text, Writer.values amd64 insertionSink [sample, sample] [] = .ok () text ∧
      ∃ after, Reader.values amd64 (rangeSource amd64) [sample.1, sample.1]
          (makeRangeSource (text ++ [7]), ()) = .ok [sample, sample] (after, ()) ∧
        after.range.drop after.position = [7] := by
  have fits : ∀ item ∈ [sample, sample], item.1.Fits amd64 item.2 := by decide
  obtain ⟨text, written, read⟩ := (serialize_deserialize amd64).2 [sample, sample] fits
  refine ⟨text, written, ?_⟩
  obtain ⟨after, done, -, left⟩ := read (rangeSource amd64) rangeDelivery
    (makeRangeSource (text ++ [7])) [7] (range_delivers amd64) (Nat.zero_le _) rfl
  exact ⟨after, done, left⟩

end Szn
