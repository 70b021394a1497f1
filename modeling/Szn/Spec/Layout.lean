import Szn.Library.Recognizer
import Szn.Spec.RoundTrip

set_option autoImplicit false

namespace Szn

open Stateful Parsing

variable {σ : Type} {source : Source σ} {D : Delivery σ Byte} (P : Platform)

def Format.Plain : Format → Prop
  | integer format type => type = .unsigned (8 * format.byteSize)
  | field format rest => format.Plain ∧ rest.Plain
  | done => True
  | boolean _ | pair _ _ _ | array _ _ | vector _ _ _ | optional _ _ | uniquePtr _
  | substitute _ _ => False

def Format.layout : (F : Format) → F.Value → List Byte
  | integer format _, value => format.order.digits format.byteSize value.toNat
  | field format rest, value => format.layout value.1 ++ rest.layout value.2
  | boolean _, _ | pair _ _ _, _ | array _ _, _ | vector _ _ _, _ | optional _ _, _
  | uniquePtr _, _ | substitute _ _, _ | done, _ => []

theorem Integer.recognizes (format : Integer) (small : format.byteSize ≤ 8) :
    Recognizes insufficientInput (format.parse (.unsigned (8 * format.byteSize)))
      (fun _ => True) fun value => format.order.digits format.byteSize value.toNat where
  ok_iff input value rest := by
    constructor
    · intro parsed
      obtain ⟨bytes, complete, rfl, -⟩ := format.parse_ok _ _ _ _ parsed
      obtain ⟨number, inside, rfl⟩ := format.digits_of_bytes bytes complete
      rw [format.parse_digits small number inside] at parsed
      cases parsed
      rw [BitVec.toNat_ofNat, Nat.mod_eq_of_lt inside]
      exact ⟨trivial, rfl⟩
    · rintro ⟨-, rfl⟩
      rw [format.parse_digits small value.toNat value.isLt, BitVec.ofNat_toNat,
        BitVec.setWidth_eq]
  error input failure failed :=
    (Recognizes.symbols insufficientInput format.byteSize).error input failure
      (run_map_error _ _ _ _ ((run_map_error_iff _ _ _ _).mp failed))

theorem Format.plain_recognizes (F : Format) (plain : F.Plain) :
    Recognizes insufficientInput (F.parse P) (fun _ => True) F.layout := by
  induction F with
  | integer format type =>
      obtain rfl : type = .unsigned (8 * format.byteSize) := plain
      exact format.toInteger.recognizes format.byteSize_le
  | done =>
      exact (Recognizes.pure _ ()).congr (fun value => by simp) fun _ _ => rfl
  | field format rest ihFormat ihRest =>
      exact ((ihFormat plain.1).inSequence (ihRest plain.2)).congr (fun value => by simp)
        fun _ _ => rfl
  | boolean | pair | array | vector | optional | uniquePtr | substitute => exact plain.elim

theorem Format.plain_blank (F : Format) (plain : F.Plain) (target : F.Value) : F.Blank target := by
  induction F with
  | integer format type => trivial
  | done => trivial
  | field format rest ihFormat ihRest => exact ⟨ihFormat plain.1 _, ihRest plain.2 _⟩
  | boolean | pair | array | vector | optional | uniquePtr | substitute => exact plain.elim

theorem Format.plain_deserializes (delivers : source.Delivers D) (F : Format) (plain : F.Plain) :
    Deserializes D (F.deserialize P source) fun _ => F.parse P := by
  refine (F.deserialize_implements P delivers).congr fun target => ?_
  rw [F.decode_blank P target (F.plain_blank plain target)]

theorem resize_length (length : Nat) (buffer : List Byte) :
    (StreamSource.resize length buffer).length = length := by
  simp [StreamSource.resize]
  omega

section Container

variable (delivers : source.Delivers D) (byteCount : Nat) (state : σ) (target : List Byte)
  (ready : D.ready state)

include delivers ready

theorem container_filled (enough : byteCount ≤ (D.unread state).length) :
    ∃ after, Szn.read source byteCount (state, target) =
        .ok () (after, (D.unread state).take byteCount) ∧
      D.ready after ∧ D.unread after = (D.unread state).drop byteCount := by
  have sized := resize_length byteCount target
  have ran : Szn.read source byteCount (state, target) =
      (if byteCount > 0 then source.read byteCount else pure ())
        (state, StreamSource.resize byteCount target) := rfl
  rw [ran]
  by_cases positive : byteCount > 0
  · obtain ⟨after, done, ready', left⟩ :=
      delivers.enough state _ byteCount ready positive sized.ge enough
    rw [List.drop_of_length_le sized.le, List.append_nil] at done
    rw [if_pos positive]
    exact ⟨after, done, ready', left⟩
  · obtain rfl : byteCount = 0 := Nat.eq_zero_of_not_pos positive
    rw [if_neg positive, List.eq_nil_of_length_eq_zero sized]
    exact ⟨state, rfl, ready, rfl⟩

theorem container_resized (short : (D.unread state).length < byteCount) :
    ∃ after, Szn.read source byteCount (state, target) =
        .error insufficientInput (after, StreamSource.resize byteCount target) ∧
      D.ready after ∧ D.unread after = D.unread state := by
  obtain ⟨after, failed, ready', left⟩ :=
    delivers.short state (StreamSource.resize byteCount target) byteCount ready short
  refine ⟨after, ?_, ready', left⟩
  have ran : Szn.read source byteCount (state, target) =
      (if byteCount > 0 then source.read byteCount else pure ())
        (state, StreamSource.resize byteCount target) := rfl
  rw [ran, if_pos (Nat.zero_lt_of_lt short), failed]

end Container

theorem read_deserializes (delivers : source.Delivers D) (byteCount : Nat) :
    Deserializes D (Szn.read source byteCount) fun _ =>
      List.Vector.toList <$> repeatN (item insufficientInput) byteCount := by
  intro state target ready
  by_cases enough : byteCount ≤ (D.unread state).length
  · have parsed := ((Recognizes.symbols insufficientInput byteCount).ok_iff (D.unread state)
      ((D.unread state).take byteCount) ((D.unread state).drop byteCount)).mpr
        ⟨List.length_take_of_le enough, (List.take_append_drop _ _).symm⟩
    rw [(run_map_ok _ _ _ _ ((), (D.unread state).take byteCount)).mpr ⟨_, parsed, rfl⟩]
    exact container_filled delivers byteCount state target ready enough
  · have short : (D.unread state).length < byteCount := Nat.not_le.mp enough
    obtain ⟨after, failed, ready', -⟩ :=
      container_resized delivers byteCount state target ready short
    have failure := run_map_error (fun value : List Byte => ((), value)) _ _ _
      (run_map_error List.Vector.toList _ _ _
        (repeatN_item_short insufficientInput byteCount _ short))
    rw [failure]
    exact ⟨after, _, failed, ready'⟩

end Szn
