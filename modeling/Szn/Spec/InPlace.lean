import Szn.Spec.RoundTrip

set_option autoImplicit false

namespace Szn

open Parsing

namespace Format

variable (P : Platform)

theorem vector_decode_fits (target : Container) (length : IntegerFormat) (element : Format)
    (each : Accords (element.decode P element.fresh) (element.parse P) (element.Fits P))
    (input rest : List Byte) (value : List element.Value)
    (parsed : ((vector target length element).parse P).run input = .ok (value, rest)) :
    (vector target length element).Fits P value := by
  obtain ⟨size, middle, counted, parsed⟩ := (run_bind_ok _ _ _ _ _).mp parsed
  have short := length.parse_unsigned_lt length.defaultBits_eq _ _ _ _ counted
  obtain ⟨reserves, values, read, rfl⟩ := (target.elements_ok P _ _ _ _ _).mp parsed
  have elements := Accords.visit (List.Vector.replicate size.toNat element.fresh)
    (p := element.decode P) fun part member => List.eq_of_mem_replicate member ▸ each
  rw [visit_eq_repeatN (q := element.decode P element.fresh) _ fun part member =>
    List.eq_of_mem_replicate member ▸ rfl] at elements
  rw [Fits, values.toList_length]
  exact ⟨short, ⟨size.isLt, reserves⟩, (elements _ _ _ read).1⟩

theorem decode_accords (F : Format) (target : F.Value)
    (clean : F.Blank target ∨ F.Fits P target) :
    Accords (F.decode P target) (F.parse P) (F.Fits P) := by
  induction F with
  | integer format type =>
      apply Accords.itself
      intro input value rest parsed
      exact format.parse_represents format.defaultBits_eq format.byteSize_pos type _ _ _ parsed
  | boolean format => exact Accords.itself fun _ _ _ _ => trivial
  | pair order first second ihFirst ihSecond =>
      have begins := ihFirst target.1 (clean.imp And.left And.left)
      have ends := ihSecond target.2 (clean.imp And.right And.right)
      cases order with
      | firstSecond => exact begins.inSequence ends _ fun _ _ => And.intro
      | secondFirst =>
          exact ends.inSequence begins (fun second first => (first, second))
            fun _ _ there here => ⟨here, there⟩
  | array length element ih =>
      rw [parse_array]
      apply Accords.visit target
      intro part member
      apply ih
      exact clean.imp (fun blank => blank part member) fun fits => fits part member
  | vector container length element ih =>
      have each := ih element.fresh (Or.inl element.fresh_blank)
      apply Accords.itself
      intro input value rest parsed
      exact vector_decode_fits P container length element each input rest value parsed
  | optional condition format ih =>
      rw [parse_optional]
      by_cases violated : (P.asserts && !target.isNone) = true
      · intro input value rest parsed
        simp only [decode, violated, if_true] at parsed
        cases parsed
      · simp only [decode, violated, Bool.false_eq_true, if_false]
        apply Accords.after condition.parse
        intro isSet
        cases isSet with
        | true =>
            apply (ih format.fresh (Or.inl format.fresh_blank)).map some
            intro value fits part member
            cases member
            exact fits
        | false =>
            -- An optional that is not set keeps what the target holds.
            apply Accords.pure target none
            intro part member
            rcases clean with blank | fits
            · rw [show target = none from blank] at member
              cases member
            · exact fits part member
  | uniquePtr pointee ih =>
      apply Accords.map some
      · apply ih
        cases target with
        | none => exact Or.inl pointee.fresh_blank
        | some held =>
            exact clean.imp (fun blank => blank held rfl) fun fits => fits.2 held rfl
      · intro value fits
        refine ⟨rfl, fun part member => ?_⟩
        cases member
        exact fits
  | substitute type constant => exact Accords.pure _ _ rfl
  | done => exact Accords.pure _ _ trivial
  | field format rest ihFormat ihRest =>
      have begins := ihFormat target.1 (clean.imp And.left And.left)
      have ends := ihRest target.2 (clean.imp And.right And.right)
      exact begins.inSequence ends _ fun _ _ => And.intro

end Format

end Szn
