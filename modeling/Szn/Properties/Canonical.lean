import Szn.Spec.Canonical
import Szn.Spec.Source

set_option autoImplicit false

namespace Szn

open Stateful Parsing Tracing

-- Every byte that was read as a boolean or as an optional's condition is 0 or 1.
def Binary (marks : List Mark) : Prop :=
  ∀ byte, .flag byte ∈ marks → byte = 0 ∨ byte = 1

-- std::size_t holds every number that was read from a length field.
def Held (P : Platform) (marks : List Mark) : Prop :=
  ∀ number, .count number ∈ marks → number < 2 ^ P.sizeBits

theorem canonical_marks (P : Platform) (marks : List Mark) :
    (∀ mark ∈ marks, mark.Canonical P) ↔ Held P marks ∧ Binary marks := by
  constructor
  · exact fun canonical =>
      ⟨fun number member => canonical _ member, fun byte member => canonical _ member⟩
  · rintro ⟨held, binary⟩ mark member
    cases mark with
    | flag byte => exact binary byte member
    | count number => exact held number member

-- What was read is written in as many bytes and reads as before. Whether these are the same bytes
-- exactly where every flag is 0 or 1 hangs on the lengths.
theorem reserialize_canonical_iff (P : Platform) (F : Format) (typed : F.DefaultTyped)
    {σ : Type} (source : Source σ) (D : Delivery σ Byte) (delivers : source.Delivers D)
    (state after : σ) (target value : F.Value) (ready : D.ready state) (blank : F.Blank target)
    (done : F.deserialize P source (state, target) = .ok () (after, value)) :
    ∃ text marks again, D.unread state = text ++ D.unread after ∧
      (F.marks P).run (D.unread state) = .ok ((value, marks), D.unread after) ∧
      F.serialize P insertionSink value [] = .ok () again ∧
      again.length = text.length ∧
      (∀ other fresh rest, D.ready other → F.Blank fresh → D.unread other = again ++ rest →
        ∃ final, F.deserialize P source (other, fresh) = .ok () (final, value) ∧
          D.ready final ∧ D.unread final = rest) ∧
      ((again = text ↔ Binary marks) ↔ Held P marks ∨ ¬ Binary marks) := by
  have parsed := (F.deserialize_implements P delivers).parsed ready done
  rw [F.decode_blank P target blank, ← F.fst_marks P] at parsed
  obtain ⟨⟨other, marks⟩, marked, same⟩ := (run_map_ok _ _ _ _ _).mp parsed
  obtain rfl : other = value := same
  obtain ⟨fits, text, again, whole, emits, size, exact⟩ :=
    F.reencodes P typed _ _ _ _ marked
  obtain ⟨text', emits', reads⟩ := F.fits_codes P other fits
  obtain rfl := emits.unique emits'
  refine ⟨text, marks, again, whole, marked, F.serialize_emits P other [] again emits, size,
    ?_, ?_⟩
  · intro final fresh rest readyFinal blankFresh unread
    exact F.deserialize_reads P delivers fresh other final again rest readyFinal unread
      blankFresh reads
  · rw [exact, canonical_marks]
    by_cases binary : Binary marks
    · simp [binary]
    · simp [binary]

theorem reserialize_canonical_iff_flags :
    let format := Format.structureOf [.boolean .boolean,
      .vector .list ⟨be8, by decide⟩ (.optional .boolean (.integer ⟨be8, by decide⟩ (.unsigned 8)))]
    ∃ again, format.serialize amd64 insertionSink (true, [some 7], ()) [] = .ok () again ∧
      again.length = 4 ∧ again ≠ [2, 1, 5, 7] := by
  intro format
  obtain ⟨text, marks, again, whole, marked, written, size, -, canonical⟩ :=
    reserialize_canonical_iff amd64 format (by exact ⟨trivial, rfl, trivial⟩) (rangeSource amd64)
      rangeDelivery (range_delivers amd64) (makeRangeSource [2, 1, 5, 7, 99])
      ⟨[2, 1, 5, 7, 99], 4⟩ format.fresh (true, [some 7], ()) (Nat.zero_le _)
      format.fresh_blank (by decide +kernel)
  have taken : text = [2, 1, 5, 7] := by
    have last : [2, 1, 5, 7] ++ [99] = text ++ [(99 : Byte)] := whole
    exact (List.append_cancel_right last).symm
  have read : marks = [.flag 2, .count 1, .flag 5] := by
    have run : (format.marks amd64).run [2, 1, 5, 7, 99] =
        .ok (((true, [some 7], ()), [.flag 2, .count 1, .flag 5]), [99]) := by decide +kernel
    rw [show rangeDelivery.unread (makeRangeSource [2, 1, 5, 7, 99]) = [2, 1, 5, 7, 99] from rfl,
      run] at marked
    cases marked
    rfl
  have odd : ¬ Binary marks := by
    intro binary
    exact absurd (binary 2 (by simp [read])) (by decide)
  refine ⟨again, written, by rw [size, taken]; rfl, ?_⟩
  rw [← taken]
  exact fun same => odd ((canonical.mpr (Or.inr odd)).mp same)

-- The count wraps to 0. No flag was read, and the bytes differ.
theorem reserialize_wraps :
    let format : Format := .vector .list ⟨be64, by decide⟩ (.integer ⟨be8, by decide⟩ (.unsigned 8))
    let text : List Byte := [0, 0, 0, 1, 0, 0, 0, 0]
    format.deserialize ilp32 (rangeSource ilp32) (makeRangeSource text, []) =
        .ok () (⟨text, 8⟩, []) ∧
      (format.marks ilp32).run text = .ok (([], [.count (2 ^ 32)]), []) ∧
      ¬ ∀ again, format.serialize ilp32 insertionSink [] [] = .ok () again →
        (again = text ↔ Binary [.count (2 ^ 32)]) := by
  intro format text
  refine ⟨by decide +kernel, by decide +kernel, fun canonical => ?_⟩
  have written : format.serialize ilp32 insertionSink [] [] = .ok () (List.replicate 8 0) := by
    decide +kernel
  have same := (canonical _ written).mpr fun byte member => by simp at member
  exact absurd same (by decide)

end Szn
