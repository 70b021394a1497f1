import Szn.Library.Stateful

set_option autoImplicit false

-- Every value has one text, the parser takes this text and no other one, and what is not the text
-- of a value is too short.

namespace Parsing

variable {ι ε α β γ : Type}

structure Recognizes (short : ε) (p : Parser ι ε α) (valid : α → Prop) (text : α → List ι) :
    Prop where
  ok_iff : ∀ input value rest,
    p.run input = .ok (value, rest) ↔ valid value ∧ input = text value ++ rest
  error : ∀ input failure, p.run input = .error failure → failure = short

namespace Recognizes

variable {short : ε} {valid : α → Prop} {text : α → List ι} {p : Parser ι ε α}

theorem congr {validAfter : α → Prop} {textAfter : α → List ι}
    (recognizes : Recognizes short p valid text) (same : ∀ value, valid value ↔ validAfter value)
    (texts : ∀ value, valid value → text value = textAfter value) :
    Recognizes short p validAfter textAfter where
  ok_iff input value rest := by
    rw [recognizes.ok_iff, ← same]
    constructor
    · rintro ⟨holds, rfl⟩
      exact ⟨holds, by rw [texts value holds]⟩
    · rintro ⟨holds, rfl⟩
      exact ⟨holds, by rw [texts value holds]⟩
  error := recognizes.error

theorem pure (short : ε) (value : α) :
    Recognizes short (Pure.pure value : Parser ι ε α) (fun result => result = value)
      fun _ => [] where
  ok_iff input result rest := by
    constructor
    · intro parsed
      cases parsed
      exact ⟨rfl, rfl⟩
    · rintro ⟨rfl, rfl⟩
      rfl
  error input failure failed := by cases failed

theorem bind {f : α → Parser ι ε β} {validNext : α → β → Prop} {textNext : α → β → List ι}
    (first : Recognizes short p valid text)
    (second : ∀ value, Recognizes short (f value) (validNext value) (textNext value))
    (part : β → α) (keeps : ∀ value result, validNext value result → part result = value) :
    Recognizes short (p >>= f)
      (fun result => valid (part result) ∧ validNext (part result) result)
      (fun result => text (part result) ++ textNext (part result) result) where
  ok_iff input result rest := by
    rw [run_bind_ok]
    constructor
    · rintro ⟨value, middle, begins, ends⟩
      obtain ⟨holds, rfl⟩ := (first.ok_iff _ _ _).mp begins
      obtain ⟨holdsNext, rfl⟩ := ((second value).ok_iff _ _ _).mp ends
      obtain rfl := keeps value result holdsNext
      exact ⟨⟨holds, holdsNext⟩, (List.append_assoc _ _ _).symm⟩
    · rintro ⟨⟨holds, holdsNext⟩, rfl⟩
      refine ⟨part result, textNext (part result) result ++ rest,
        (first.ok_iff _ _ _).mpr ⟨holds, ?_⟩, ((second _).ok_iff _ _ _).mpr ⟨holdsNext, rfl⟩⟩
      rw [List.append_assoc]
  error input failure failed := by
    cases parsed : p.run input with
    | error other =>
        rw [run_bind_error _ _ _ _ parsed] at failed
        cases failed
        exact first.error _ _ parsed
    | ok found =>
        rw [run_bind_of_ok _ _ _ _ _ parsed] at failed
        exact (second found.1).error _ _ failed

theorem inSequence {validOther : β → Prop} {textOther : β → List ι} {q : Parser ι ε β}
    (first : Recognizes short p valid text) (second : Recognizes short q validOther textOther) :
    Recognizes short
      (do
        let value ← p
        let other ← q
        Pure.pure (value, other))
      (fun result => valid result.1 ∧ validOther result.2)
      (fun result => text result.1 ++ textOther result.2) := by
  have ends (value : α) := second.bind (fun other => pure short (value, other)) Prod.snd
    fun other result same => congrArg Prod.snd same
  refine (first.bind ends Prod.fst fun value result holds => congrArg Prod.fst holds.2).congr
    (fun result => ?_) fun result _ => ?_
  · simp
  · simp

theorem symbols (short : ε) (n : Nat) :
    Recognizes short (List.Vector.toList <$> repeatN (item short) n : Parser ι ε (List ι))
      (fun symbols => symbols.length = n) id where
  ok_iff input symbols rest := by
    rw [run_map_ok]
    constructor
    · rintro ⟨taken, parsed, rfl⟩
      exact ⟨taken.toList_length, repeatN_item_ok _ _ _ _ _ parsed⟩
    · rintro ⟨complete, rfl⟩
      have reads := Reads.repeatN (p := item short) (fun symbol : ι => [symbol])
        ⟨symbols, complete⟩ fun symbol _ => Reads.item short symbol
      exact ⟨⟨symbols, complete⟩, by simpa using reads rest, rfl⟩
  error input failure failed := by
    rw [run_map_error_iff] at failed
    by_cases less : input.length < n
    · rw [repeatN_item_short short n input less] at failed
      exact (Except.error.inj failed).symm
    · have complete : (input.take n).length = n :=
        List.length_take_of_le (Nat.not_lt.mp less)
      have reads := Reads.repeatN (p := item short) (fun symbol : ι => [symbol])
        ⟨input.take n, complete⟩ fun symbol _ => Reads.item short symbol
      have parsed := reads (input.drop n)
      simp [List.take_append_drop, List.Vector.toList, failed] at parsed

end Recognizes

end Parsing

namespace Stateful

open Parsing

variable {ε σ τ ι : Type} {D : Delivery σ ι}

theorem Deserializes.recognizes {step : EStateM ε (σ × τ) Unit} {p : Parser ι ε τ} {short : ε}
    {valid : τ → Prop} {text : τ → List ι} (deserializes : Deserializes D step fun _ => p)
    (exactly : Recognizes short p valid text) {state : σ} (ready : D.ready state) (target : τ) :
    (∀ value rest, (∃ after, step (state, target) = .ok () (after, value) ∧
        D.unread after = rest) ↔ valid value ∧ D.unread state = text value ++ rest) ∧
      ((∀ value rest, valid value → D.unread state ≠ text value ++ rest) →
        ∃ after left, step (state, target) = .error short (after, left) ∧ D.ready after) := by
  constructor
  · intro value rest
    rw [deserializes.ok_iff ready]
    exact exactly.ok_iff _ _ _
  · intro none
    cases parsed : p.run (D.unread state) with
    | ok found =>
        obtain ⟨holds, same⟩ := (exactly.ok_iff _ _ _).mp parsed
        exact absurd same (none _ _ holds)
    | error failure =>
        obtain rfl := exactly.error _ _ parsed
        obtain ⟨after, left, failed, ready'⟩ := Deserializes.error deserializes ready parsed
        exact ⟨after, left, failed, ready'⟩

end Stateful
