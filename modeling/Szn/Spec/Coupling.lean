import Szn.Library.Coupling
import Szn.Model.Language
import Szn.Spec.Source

set_option autoImplicit false

namespace Szn

open Stateful

variable {σ ρ τ α β : Type} {C : Coupling Failure σ ρ}

def Coupled (C : Coupling Failure σ ρ) : Prop :=
  ∀ first second, C.related first second →
    C.failed .assertion first second ∧ C.failed .lengthError first second

theorem assert_couples (coupled : Coupled C) (P : Platform) (condition : Bool) :
    Couples C (assert P condition : EStateM Failure (σ × τ) Unit) (assert P condition) := by
  exact Couples.ite _
    (fun _ => Couples.throw _ fun first second related => (coupled first second related).1)
    fun _ => Couples.pure ()

/-- Whatever a format makes of one source it makes of the other one. -/
structure Reading (C : Coupling Failure σ ρ) (source : Source σ) (other : Source ρ) : Prop where
  coupled : Coupled C
  byte : CouplesAt C [0] (source.read 1) (other.read 1)

variable {source : Source σ} {other : Source ρ} (reading : Reading C source other)

include reading

theorem Integer.deserialize_couples (format : Integer) (type : ValueType) :
    Couples C (format.deserialize source type) (format.deserialize other type) := by
  unfold Integer.deserialize
  refine Couples.bind (Couples.foldlM (fun result b => ?_) _ _) fun result => ?_
  · exact Couples.bind (Couples.withLocal reading.byte) fun byte => Couples.pure _
  · exact Couples.ite _ (fun _ => Couples.assignTarget _) fun _ => Couples.assignTarget _

theorem Boolean.deserialize_couples (format : Boolean) :
    Couples C (format.deserialize source) (format.deserialize other) := by
  induction format with
  | boolean =>
      exact Couples.bind (Couples.withLocal
        (be8.deserialize_couples reading ByteBool.valueType _)) fun buffer =>
          Couples.assignTarget _
  | booleanNot underlying ih =>
      exact Couples.bind (Couples.withLocal (ih _)) fun value => Couples.assignTarget _

omit reading in
theorem Pair.deserialize_couples (order : PairOrder)
    {first : EStateM Failure (σ × α) Unit} {first' : EStateM Failure (ρ × α) Unit}
    {second : EStateM Failure (σ × β) Unit} {second' : EStateM Failure (ρ × β) Unit}
    (couplesFirst : Couples C first first') (couplesSecond : Couples C second second') :
    Couples C (Pair.deserialize order first second) (Pair.deserialize order first' second') := by
  cases order with
  | firstSecond =>
      exact Couples.bind (Couples.within couplesFirst) fun _ =>
        Couples.bind (Couples.within couplesSecond) fun _ => Couples.pure ()
  | secondFirst =>
      exact Couples.bind (Couples.within couplesSecond) fun _ =>
        Couples.ite _ (fun _ => Couples.within couplesFirst) fun _ => Couples.pure ()

omit reading in
theorem Array.deserialize_couples {element : EStateM Failure (σ × α) Unit}
    {element' : EStateM Failure (ρ × α) Unit} (couples : Couples C element element')
    (length : Nat) :
    Couples C (Array.deserialize element length) (Array.deserialize element' length) := by
  induction length with
  | zero => exact Couples.pure ()
  | succ length ih => exact Couples.bind (Couples.within couples) fun _ => Couples.within ih

omit reading in
theorem Vector.insertElements_couples {element : EStateM Failure (σ × α) Unit}
    {element' : EStateM Failure (ρ × α) Unit} (couples : Couples C element element') (fresh : α)
    (count : Nat) :
    Couples C (Vector.insertElements fresh element count)
      (Vector.insertElements fresh element' count) := by
  induction count with
  | zero => exact Couples.pure ()
  | succ count ih =>
      exact Couples.bind (Couples.withLocal (couples fresh)) fun e =>
        Couples.bind Couples.readTarget fun v =>
          Couples.bind (Couples.assignTarget _) fun _ => ih

theorem Vector.deserialize_couples (P : Platform) (length : Integer) (target : Container)
    {element : EStateM Failure (σ × α) Unit} {element' : EStateM Failure (ρ × α) Unit}
    (couples : Couples C element element') (fresh : α) :
    Couples C (Vector.deserialize P length target source fresh element)
      (Vector.deserialize P length target other fresh element') := by
  have reserves (size : Nat) : Couples C (target.reserve P size : EStateM Failure (σ × List α) Unit)
      (target.reserve P size) := by
    cases target with
    | vector maxSize =>
        exact Couples.ite _
          (fun _ => Couples.throw _ fun first second related =>
            (reading.coupled first second related).2)
          fun _ => Couples.pure ()
    | list | deque | string => exact Couples.pure ()
  exact Couples.bind (Couples.withLocal (length.deserialize_couples reading (sizeType P) _))
    fun size => Couples.bind (Couples.assignTarget []) fun _ =>
      Couples.bind (reserves _) fun _ => Vector.insertElements_couples couples fresh _

theorem Optional.deserialize_couples (P : Platform) (condition : Boolean)
    {value : EStateM Failure (σ × α) Unit} {value' : EStateM Failure (ρ × α) Unit}
    (couples : Couples C value value') (fresh : α) :
    Couples C (Optional.deserialize P (condition.deserialize source) fresh value)
      (Optional.deserialize P (condition.deserialize other) fresh value') := by
  have decoded : Couples C (do
      let temporary ← withLocal fresh value
      assignTarget (some temporary) : EStateM Failure (σ × Option α) Unit) (do
      let temporary ← withLocal fresh value'
      assignTarget (some temporary)) :=
    Couples.bind (Couples.withLocal (couples fresh)) fun _ => Couples.assignTarget _
  exact Couples.bind Couples.readTarget fun target =>
    Couples.bind (assert_couples reading.coupled P _) fun _ =>
      Couples.bind (Couples.withLocal (condition.deserialize_couples reading false)) fun isSet =>
        Couples.ite _ (fun _ => decoded) fun _ => Couples.pure ()

omit reading in
theorem UniquePtr.deserialize_couples {pointee : EStateM Failure (σ × α) Unit}
    {pointee' : EStateM Failure (ρ × α) Unit} (couples : Couples C pointee pointee')
    (fresh : α) :
    Couples C (UniquePtr.deserialize fresh pointee) (UniquePtr.deserialize fresh pointee') := by
  exact Couples.bind Couples.readTarget fun p =>
    Couples.ite _ (fun _ => Couples.bind (Couples.assignTarget _) fun _ => Couples.within couples)
      fun _ => Couples.within couples

-- A format reads its source byte by byte and through nothing else.
theorem Format.deserialize_couples (P : Platform) (F : Format) :
    Couples C (F.deserialize P source) (F.deserialize P other) := by
  induction F with
  | integer format type => exact format.deserialize_couples reading type
  | boolean format => exact format.deserialize_couples reading
  | pair order first second ihFirst ihSecond =>
      exact Pair.deserialize_couples order ihFirst ihSecond
  | array length element ih => exact Array.deserialize_couples ih length
  | vector target length element ih =>
      exact Vector.deserialize_couples reading P length.toInteger target ih element.fresh
  | optional condition value ih =>
      exact Optional.deserialize_couples reading P condition ih value.fresh
  | uniquePtr pointee ih => exact UniquePtr.deserialize_couples ih pointee.fresh
  | substitute type constant => exact Couples.assignTarget constant
  | done => exact Couples.pure ()
  | field format rest ihFormat ihRest =>
      exact Couples.bind (Couples.within ihFormat) fun _ => Couples.within ihRest

end Szn
