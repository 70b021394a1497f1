import Szn.Spec.Parse

set_option autoImplicit false

namespace Szn

open Stateful Parsing

theorem deserialize_self_delimiting (P : Platform) (F : Format) {σ : Type} (source : Source σ)
    (D : Delivery σ Byte) (delivers : source.Delivers D) (state after : σ)
    (target value : F.Value) (ready : D.ready state) (blank : F.Blank target)
    (done : F.deserialize P source (state, target) = .ok () (after, value)) :
    ∃ text, D.unread state = text ++ D.unread after ∧
      ∀ other fresh, D.ready other → F.Blank fresh →
        (∀ more, D.unread other = text ++ more →
          ∃ final, F.deserialize P source (other, fresh) = .ok () (final, value) ∧
            D.ready final ∧ D.unread final = more) ∧
        (D.unread other <+: text → D.unread other ≠ text →
          ∃ final left, F.deserialize P source (other, fresh) =
            .error insufficientInput (final, left)) := by
  have implements := F.deserialize_implements P delivers
  have parsed := implements.parsed ready done
  rw [F.decode_blank P target blank] at parsed
  obtain ⟨text, whole, reads, short⟩ := F.parse_delimited P _ _ _ parsed
  refine ⟨text, whole, ?_⟩
  intro other fresh readyOther blankFresh
  constructor
  · intro more unread
    apply implements.ok readyOther
    rw [unread, F.decode_blank P fresh blankFresh]
    exact reads more
  · intro inside proper
    have failed := short _ inside proper
    rw [← F.decode_blank P fresh blankFresh] at failed
    obtain ⟨final, left, failed, -⟩ := implements.error readyOther failed
    exact ⟨final, left, failed⟩

theorem string_self_delimiting :
    let format := Format.vector .string ⟨be8, by decide⟩
      (.integer ⟨be8, by decide⟩ (.unsigned 8))
    ∃ final left, format.deserialize amd64 (rangeSource amd64)
      (makeRangeSource [2, 104], []) = .error insufficientInput (final, left) := by
  intro format
  obtain ⟨text, whole, others⟩ := deserialize_self_delimiting amd64 format (rangeSource amd64)
    rangeDelivery (range_delivers amd64) (makeRangeSource [2, 104, 105, 33]) ⟨[2, 104, 105, 33], 3⟩
    [] [104, 105] (Nat.zero_le _) trivial (by decide +kernel)
  have taken : text = [2, 104, 105] := by
    have last : [2, 104, 105] ++ [33] = text ++ [(33 : Byte)] := whole
    exact (List.append_cancel_right last).symm
  have short := (others (makeRangeSource [2, 104]) [] (Nat.zero_le _) trivial).2
  apply short
  · rw [taken]
    exact ⟨[105], rfl⟩
  · rw [taken]
    decide

end Szn
