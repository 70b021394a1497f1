import Szn.Model.Language
import Szn.Spec.Integer

set_option autoImplicit false

namespace Szn

open Stateful Parsing

variable {σ α β : Type} {source : Source σ} {D : Delivery σ Byte}

def Boolean.parse : Boolean → Parser Byte Failure Bool
  | boolean => ByteBool.toBool <$> be8.parse ByteBool.valueType
  | booleanNot underlying => (fun value => !value) <$> underlying.parse

def Container.reserving (P : Platform) (target : Container) (size : Nat) :
    Parser Byte Failure Unit :=
  match target with
  | vector maxSize => if maxSize P.toAbi < size then throw Failure.lengthError else pure ()
  | list | deque | string => pure ()

theorem assert_implements {τ : Type} (P : Platform) (condition : Bool) :
    Implements D (assert P condition : EStateM Failure (σ × τ) Unit)
      (fun target => do
        if P.asserts && !condition then throw Failure.assertion else pure ()
        pure ((), target)) := by
  unfold assert
  by_cases violated : (P.asserts && !condition) = true
  · rw [if_pos violated]
    exact (Implements.throw _).congr fun target => by simp only [violated, if_true]; rfl
  · rw [if_neg violated]
    exact (Implements.pure ()).congr fun target => by simp [violated]

theorem Boolean.deserialize_implements (delivers : source.Delivers D) (format : Boolean) :
    Deserializes D (format.deserialize source) (fun _ => format.parse) := by
  induction format with
  | boolean =>
      rw [deserialize, BasicBool.deserialize, parse]
      refine (Implements.bind (Implements.withLocal
        (be8.deserialize_implements delivers ByteBool.valueType))
        fun buffer => Implements.assignTarget (ByteBool.toBool buffer)).congr ?_
      intro target
      simp [Functor.map_map]
  | booleanNot underlying ih =>
      rw [deserialize, parse]
      refine (Implements.bind (Implements.withLocal ih) fun underlyingValue =>
        Implements.assignTarget (!underlyingValue)).congr ?_
      intro target
      simp only [bind_assoc, pure_bind, map_eq_pure_bind]

theorem Pair.deserialize_implements (order : PairOrder)
    {first : EStateM Failure (σ × α) Unit} {second : EStateM Failure (σ × β) Unit}
    {specFirst : α → Parser Byte Failure α} {specSecond : β → Parser Byte Failure β}
    (readsFirst : Deserializes D first specFirst) (readsSecond : Deserializes D second specSecond) :
    Deserializes D (Pair.deserialize order first second) (fun target =>
      match order with
      | .firstSecond => do
          let firstValue ← specFirst target.1
          let secondValue ← specSecond target.2
          pure (firstValue, secondValue)
      | .secondFirst => do
          let secondValue ← specSecond target.2
          let firstValue ← specFirst target.1
          pure (firstValue, secondValue)) := by
  cases order with
  | firstSecond =>
      simp only [Pair.deserialize, if_true, ne_eq, not_true_eq_false, if_false, bind_pure_unit]
      refine (Implements.bind (Implements.within readsFirst) fun _ =>
        Implements.within readsSecond).congr ?_
      intro target
      simp only [bind_assoc, pure_bind, map_eq_pure_bind]
  | secondFirst =>
      have other : (PairOrder.secondFirst = PairOrder.firstSecond) = False := by simp
      simp only [Pair.deserialize, other, ne_eq, not_false_eq_true, if_true, if_false]
      refine (Implements.bind (Implements.within readsSecond) fun _ =>
        Implements.within readsFirst).congr ?_
      intro target
      simp only [bind_assoc, pure_bind, map_eq_pure_bind]

theorem Array.deserialize_implements {element : EStateM Failure (σ × α) Unit}
    {spec : α → Parser Byte Failure α} (reads : Deserializes D element spec) (length : Nat) :
    Deserializes D (Array.deserialize element length) (visit spec) := by
  induction length with
  | zero =>
      refine (Implements.pure ()).congr ?_
      intro target
      rw [List.Vector.eq_nil target]
      rfl
  | succ length ih =>
      refine (Implements.bind (Implements.within reads) fun _ => Implements.within ih).congr ?_
      intro target
      simp [visit]

theorem Vector.insertElements_implements {element : EStateM Failure (σ × α) Unit}
    {spec : α → Parser Byte Failure α} (reads : Deserializes D element spec) (fresh : α)
    (count : Nat) :
    Deserializes D (Vector.insertElements fresh element count) (fun v =>
      (fun elements => v ++ elements.toList) <$> repeatN (spec fresh) count) := by
  induction count with
  | zero =>
      refine (Implements.pure ()).congr ?_
      intro v
      simp [repeatN]
  | succ count ih =>
      refine (Implements.bind (Implements.withLocal reads) fun e =>
        Implements.bind Implements.readTarget fun v =>
          Implements.bind (Implements.assignTarget (v ++ [e])) fun _ => ih).congr ?_
      intro v
      simp [repeatN]

theorem Container.reserve_implements {τ : Type} (P : Platform) (target : Container) (size : Nat) :
    Implements D (target.reserve P size : EStateM Failure (σ × τ) Unit)
      (fun old => do
        target.reserving P size
        pure ((), old)) := by
  cases target with
  | vector maxSize =>
      unfold reserve reserving
      by_cases tooLong : maxSize P.toAbi < size
      · simp only [if_pos tooLong]
        exact Implements.throw _
      · simp only [if_neg tooLong, pure_bind]
        exact Implements.pure ()
  | list | deque | string => exact Implements.pure ()

theorem Vector.deserialize_implements (P : Platform) (delivers : source.Delivers D)
    (length : Integer) (target : Container) {element : EStateM Failure (σ × α) Unit}
    {spec : α → Parser Byte Failure α} (reads : Deserializes D element spec) (fresh : α) :
    Deserializes D (Vector.deserialize P length target source fresh element) (fun _ => do
      let size ← length.parse (sizeType P)
      target.reserving P size.toNat
      let elements ← repeatN (spec fresh) size.toNat
      pure elements.toList) := by
  refine (Implements.bind (Implements.withLocal
    (length.deserialize_implements delivers (sizeType P))) fun size =>
      Implements.bind (Implements.assignTarget []) fun _ =>
        Implements.bind (Container.reserve_implements P target size.toNat) fun _ =>
          Vector.insertElements_implements reads fresh size.toNat).congr ?_
  intro v
  simp

theorem Optional.deserialize_implements (P : Platform)
    {condition : EStateM Failure (σ × Bool) Unit} {specCondition : Bool → Parser Byte Failure Bool}
    (readsCondition : Deserializes D condition specCondition)
    {value : EStateM Failure (σ × α) Unit} {spec : α → Parser Byte Failure α}
    (reads : Deserializes D value spec) (fresh : α) :
    Deserializes D (Optional.deserialize P condition fresh value) (fun target => do
      if P.asserts && !target.isNone then throw Failure.assertion else pure ()
      let isSet ← specCondition false
      if isSet then some <$> spec fresh else pure target) := by
  have branch (isSet : Bool) : Deserializes D
      ((do
        if isSet then
          let temporary ← withLocal fresh value
          assignTarget (some temporary)) : EStateM Failure (σ × Option α) Unit)
      (fun target => if isSet then some <$> spec fresh else pure target) := by
    cases isSet with
    | false =>
        refine (Implements.pure ()).congr fun target => ?_
        simp
    | true =>
        refine (Implements.bind (Implements.withLocal reads) fun temporary =>
          Implements.assignTarget (some temporary)).congr fun target => ?_
        simp
  refine (Implements.bind Implements.readTarget fun target =>
    Implements.bind (assert_implements P target.isNone) fun _ =>
      Implements.bind (Implements.withLocal readsCondition) branch).congr ?_
  intro target
  rw [pure_bind]
  by_cases violated : (P.asserts && !target.isNone) = true
  · simp only [violated, if_true]
    rfl
  · simp only [violated]
    simp

theorem UniquePtr.deserialize_implements {pointee : EStateM Failure (σ × α) Unit}
    {spec : α → Parser Byte Failure α} (reads : Deserializes D pointee spec) (fresh : α) :
    Deserializes D (UniquePtr.deserialize fresh pointee) (fun p =>
      some <$> spec (p.getD fresh)) := by
  have onPointee (p : Option α) : Implements D
      (if p.isNone then
        assignTarget (some fresh) >>= fun _ =>
          within (fun p => p.getD fresh) (fun value _ => some value) pointee
      else within (fun p => p.getD fresh) (fun value _ => some value) pointee)
      (fun old => do
        let value ← spec ((if p.isNone then some fresh else old).getD fresh)
        pure ((), some value)) := by
    cases p with
    | none =>
        refine (Implements.bind (Implements.assignTarget (some fresh)) fun _ =>
          Implements.within reads).congr fun target => ?_
        simp
    | some value =>
        simp only [Option.isNone_some, Bool.false_eq_true, if_false]
        refine (Implements.within reads).congr fun target => ?_
        simp
  refine (Implements.bind Implements.readTarget onPointee).congr fun target => ?_
  cases target <;> simp

theorem Structure.deserialize_implements {field : EStateM Failure (σ × α) Unit}
    {rest : EStateM Failure (σ × β) Unit}
    {specField : α → Parser Byte Failure α} {specRest : β → Parser Byte Failure β}
    (readsField : Deserializes D field specField) (readsRest : Deserializes D rest specRest) :
    Deserializes D (Structure.deserialize field rest) (fun target => do
      let first ← specField target.1
      let others ← specRest target.2
      pure (first, others)) := by
  refine (Implements.bind (Implements.within readsField) fun _ =>
    Implements.within readsRest).congr ?_
  intro target
  simp only [bind_assoc, pure_bind, map_eq_pure_bind]

namespace Format

variable (P : Platform)

def decode : (F : Format) → (target : F.Value) → Parser Byte Failure F.Value
  | integer format type, _ => format.parse type
  | boolean format, _ => format.parse
  | pair .firstSecond first second, target => do
      let firstValue ← first.decode target.1
      let secondValue ← second.decode target.2
      pure (firstValue, secondValue)
  | pair .secondFirst first second, target => do
      let secondValue ← second.decode target.2
      let firstValue ← first.decode target.1
      pure (firstValue, secondValue)
  | array _ element, target => visit element.decode target
  | vector container length element, _ => do
      let size ← length.parse (sizeType P)
      container.reserving P size.toNat
      let elements ← repeatN (element.decode element.fresh) size.toNat
      pure elements.toList
  | optional condition value, target => do
      if P.asserts && !target.isNone then throw Failure.assertion else pure ()
      let isSet ← condition.parse
      if isSet then some <$> value.decode value.fresh else pure target
  | uniquePtr pointee, target => some <$> pointee.decode (target.getD pointee.fresh)
  | substitute _ constant, _ => pure constant
  | done, _ => pure ()
  | field format rest, target => do
      let first ← format.decode target.1
      let others ← rest.decode target.2
      pure (first, others)

theorem deserialize_implements (delivers : source.Delivers D) (F : Format) :
    Deserializes D (F.deserialize P source) (F.decode P) := by
  induction F with
  | integer format type => exact format.deserialize_implements delivers type
  | boolean format => exact format.deserialize_implements delivers
  | pair order first second ihFirst ihSecond =>
      cases order <;> exact Pair.deserialize_implements _ ihFirst ihSecond
  | array length element ih => exact Array.deserialize_implements ih length
  | vector target length element ih =>
      exact Vector.deserialize_implements P delivers length.toInteger target ih element.fresh
  | optional condition value ih =>
      exact Optional.deserialize_implements P (condition.deserialize_implements delivers) ih
        value.fresh
  | uniquePtr pointee ih => exact UniquePtr.deserialize_implements ih pointee.fresh
  | substitute type constant => exact Implements.assignTarget constant
  | done => exact Implements.pure ()
  | field format rest ihFormat ihRest =>
      exact Structure.deserialize_implements ihFormat ihRest

end Format

end Szn
