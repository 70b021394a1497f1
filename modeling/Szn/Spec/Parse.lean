import Szn.Spec.Deserialize

set_option autoImplicit false

namespace Szn

open Parsing

theorem Boolean.parse_delimited (format : Boolean) :
    Delimited insufficientInput format.parse := by
  induction format with
  | boolean => exact (be8.parse_delimited ByteBool.valueType).map ByteBool.toBool
  | booleanNot underlying ih => exact ih.map _

theorem Container.reserving_delimited (P : Platform) (target : Container) (size : Nat) :
    Delimited insufficientInput (target.reserving P size) := by
  cases target with
  | vector maxSize =>
      by_cases tooLong : maxSize P.toAbi < size
      · simp only [reserving, if_pos tooLong]
        exact Delimited.throw _ _
      · simp only [reserving, if_neg tooLong]
        exact Delimited.pure _ ()
  | list | deque | string => exact Delimited.pure _ ()

namespace Format

variable (P : Platform)

def parse (F : Format) : Parser Byte Failure F.Value := F.decode P F.fresh

theorem fresh_blank (F : Format) : F.Blank F.fresh := by
  induction F with
  | pair order first second ihFirst ihSecond => exact ⟨ihFirst, ihSecond⟩
  | array length element ih =>
      intro part member
      rw [show part = element.fresh by simpa [fresh] using (List.eq_of_mem_replicate member)]
      exact ih
  | optional condition value ih => rfl
  | uniquePtr pointee ih => exact fun part member => by cases member
  | field format rest ihFormat ihRest => exact ⟨ihFormat, ihRest⟩
  | integer format type => trivial
  | boolean format => trivial
  | vector target length element ih => trivial
  | substitute type constant => trivial
  | done => trivial

theorem decode_blank (F : Format) (target : F.Value) (blank : F.Blank target) :
    F.decode P target = F.parse P := by
  unfold parse
  induction F with
  | pair order first second ihFirst ihSecond =>
      have sameFirst := ihFirst target.1 blank.1
      have sameSecond := ihSecond target.2 blank.2
      cases order <;> simp only [decode, fresh, sameFirst, sameSecond]
  | array length element ih =>
      have visited := visit_eq_repeatN target fun part member => ih part (blank part member)
      have replicated := visit_eq_repeatN (p := element.decode P)
        (List.Vector.replicate length element.fresh) fun part member =>
          congrArg (element.decode P) (List.eq_of_mem_replicate member)
      exact visited.trans replicated.symm
  | optional condition value ih => rw [show target = none from blank, fresh]
  | uniquePtr pointee ih =>
      cases target with
      | none => rfl
      | some value =>
          have same := ih value (blank value rfl)
          simp only [decode, fresh, Option.getD_some, Option.getD_none, same]
  | field format rest ihFormat ihRest =>
      have sameFormat := ihFormat target.1 blank.1
      have sameRest := ihRest target.2 blank.2
      simp only [decode, fresh, sameFormat, sameRest]
  | integer format type => rfl
  | boolean format => rfl
  | vector target length element ih => rfl
  | substitute type constant => rfl
  | done => rfl

section Equations

theorem parse_array (length : Nat) (element : Format) :
    (array length element).parse P = repeatN (element.parse P) length :=
  visit_eq_repeatN (List.Vector.replicate length element.fresh) fun _ member =>
    congrArg (element.decode P) (List.eq_of_mem_replicate member)

theorem parse_optional (condition : Boolean) (value : Format) :
    (optional condition value).parse P = (do
      let isSet ← condition.parse
      if isSet then some <$> value.parse P else pure none) := by
  simp [parse, decode, fresh]

end Equations

theorem parse_delimited (F : Format) : Delimited insufficientInput (F.parse P) := by
  induction F with
  | integer format type => exact format.parse_delimited type
  | boolean format => exact format.parse_delimited
  | pair order first second ihFirst ihSecond =>
      cases order with
      | firstSecond =>
          exact ihFirst.bind fun _ => ihSecond.bind fun _ => Delimited.pure _ _
      | secondFirst =>
          exact ihSecond.bind fun _ => ihFirst.bind fun _ => Delimited.pure _ _
  | array length element ih =>
      rw [parse_array]
      exact ih.repeatN length
  | vector target length element ih =>
      exact (length.parse_delimited (sizeType P)).bind fun size =>
        (target.reserving_delimited P size.toNat).bind fun _ =>
          (ih.repeatN size.toNat).bind fun _ => Delimited.pure _ _
  | optional condition value ih =>
      rw [parse_optional]
      apply condition.parse_delimited.bind
      intro isSet
      cases isSet with
      | true => exact ih.map some
      | false => exact Delimited.pure _ none
  | uniquePtr pointee ih => exact ih.map some
  | substitute type constant => exact Delimited.pure _ constant
  | done => exact Delimited.pure _ ()
  | field format rest ihFormat ihRest =>
      exact ihFormat.bind fun _ => ihRest.bind fun _ => Delimited.pure _ _

end Format

end Szn
