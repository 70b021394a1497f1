import Mathlib.Algebra.GroupWithZero.Nat
import Mathlib.Data.List.Basic
import Mathlib.Data.Vector.Basic

set_option autoImplicit false

namespace Parsing

variable {ι ε α β : Type}

abbrev Parser (ι ε : Type) := StateT (List ι) (Except ε)

theorem run_bind_ok (p : Parser ι ε α) (f : α → Parser ι ε β)
    (input rest : List ι) (result : β) :
    (p >>= f).run input = .ok (result, rest) ↔
      ∃ value middle, p.run input = .ok (value, middle) ∧
        (f value).run middle = .ok (result, rest) := by
  rw [StateT.run_bind]
  cases p.run input with
  | error failure => simp [bind, Except.bind]
  | ok found =>
      obtain ⟨value, middle⟩ := found
      simp only [bind, Except.bind, Except.ok.injEq, Prod.mk.injEq]
      constructor
      · intro done
        exact ⟨value, middle, ⟨rfl, rfl⟩, done⟩
      · rintro ⟨_, _, ⟨rfl, rfl⟩, done⟩
        exact done

theorem run_bind_error (p : Parser ι ε α) (f : α → Parser ι ε β)
    (input : List ι) (failure : ε) (failed : p.run input = .error failure) :
    (p >>= f).run input = .error failure := by
  rw [StateT.run_bind, failed]
  rfl

theorem run_bind_of_ok (p : Parser ι ε α) (f : α → Parser ι ε β)
    (input middle : List ι) (value : α) (parsed : p.run input = .ok (value, middle)) :
    (p >>= f).run input = (f value).run middle := by
  rw [StateT.run_bind, parsed]
  rfl

@[simp] theorem run_map_ok (f : α → β) (p : Parser ι ε α)
    (input rest : List ι) (result : β) :
    (f <$> p).run input = .ok (result, rest) ↔
      ∃ value, p.run input = .ok (value, rest) ∧ f value = result := by
  rw [StateT.run_map]
  cases p.run input with
  | error failure => simp [Functor.map, Except.map]
  | ok found =>
      obtain ⟨value, middle⟩ := found
      simp only [Functor.map, Except.map, Except.ok.injEq, Prod.mk.injEq]
      constructor
      · rintro ⟨rfl, rfl⟩
        exact ⟨value, ⟨rfl, rfl⟩, rfl⟩
      · rintro ⟨_, ⟨rfl, rfl⟩, rfl⟩
        exact ⟨rfl, rfl⟩

theorem run_map_error (f : α → β) (p : Parser ι ε α) (input : List ι) (failure : ε)
    (failed : p.run input = .error failure) : (f <$> p).run input = .error failure := by
  rw [map_eq_pure_bind]
  exact run_bind_error _ _ _ _ failed

theorem run_map_error_iff (f : α → β) (p : Parser ι ε α) (input : List ι) (failure : ε) :
    (f <$> p).run input = .error failure ↔ p.run input = .error failure := by
  refine ⟨?_, run_map_error f p input failure⟩
  rw [StateT.run_map]
  cases p.run input with
  | error other => simp [Functor.map, Except.map]
  | ok found => simp [Functor.map, Except.map]

def item (short : ε) : Parser ι ε ι := fun input =>
  match input with
  | [] => .error short
  | head :: rest => .ok (head, rest)

def repeatN (p : Parser ι ε α) : (n : Nat) → Parser ι ε (List.Vector α n)
  | 0 => pure .nil
  | n + 1 => do
      let first ← p
      let rest ← repeatN p n
      pure (first ::ᵥ rest)

theorem repeatN_succ_ok (p : Parser ι ε α) (n : Nat) (input rest : List ι) (first : α)
    (others : List.Vector α n)
    (parsed : (repeatN p (n + 1)).run input = .ok (first ::ᵥ others, rest)) :
    ∃ middle, p.run input = .ok (first, middle) ∧
      (repeatN p n).run middle = .ok (others, rest) := by
  obtain ⟨value, middle, parsedFirst, parsed⟩ := (run_bind_ok _ _ _ _ _).mp parsed
  obtain ⟨values, final, parsedOthers, done⟩ := (run_bind_ok _ _ _ _ _).mp parsed
  obtain ⟨same, rfl⟩ := Prod.mk.inj (Except.ok.inj done)
  obtain ⟨rfl, rfl⟩ := (List.Vector.eq_cons_iff _ _ _).mp same
  exact ⟨middle, parsedFirst, parsedOthers⟩

theorem repeatN_item_ok (short : ε) (n : Nat) (input rest : List ι) (symbols : List.Vector ι n)
    (parsed : (repeatN (item short) n).run input = .ok (symbols, rest)) :
    input = symbols.toList ++ rest := by
  induction n generalizing input with
  | zero =>
      cases parsed
      rfl
  | succ n ih =>
      cases input with
      | nil => cases parsed
      | cons head tail =>
          rw [repeatN, run_bind_of_ok _ _ _ tail head rfl] at parsed
          obtain ⟨others, middle, parsedTail, done⟩ := (run_bind_ok _ _ _ _ _).mp parsed
          cases done
          rw [List.Vector.toList_cons, List.cons_append, ih tail others parsedTail]

theorem repeatN_texts {p : Parser ι ε α} {text : α → List ι}
    (each : ∀ input value rest, p.run input = .ok (value, rest) → input = text value ++ rest)
    (n : Nat) (input rest : List ι) (values : List.Vector α n)
    (parsed : (repeatN p n).run input = .ok (values, rest)) :
    input = values.toList.flatMap text ++ rest := by
  induction n generalizing input with
  | zero =>
      cases parsed
      rfl
  | succ n ih =>
      rw [← List.Vector.cons_head_tail values] at parsed ⊢
      obtain ⟨middle, begins, ends⟩ := repeatN_succ_ok p n input rest _ _ parsed
      rw [List.Vector.toList_cons, List.flatMap_cons, List.append_assoc,
        ← ih middle _ ends]
      exact each input _ middle begins

theorem repeatN_item_short (short : ε) (n : Nat) (input : List ι) (less : input.length < n) :
    (repeatN (item short) n).run input = .error short := by
  induction n generalizing input with
  | zero => exact absurd less (Nat.not_lt_zero _)
  | succ n ih =>
      cases input with
      | nil => rfl
      | cons head tail =>
          rw [repeatN, run_bind_of_ok _ _ _ tail head rfl]
          exact run_bind_error _ _ _ _ (ih tail (Nat.lt_of_succ_lt_succ less))

def visit (p : α → Parser ι ε α) : {n : Nat} → List.Vector α n → Parser ι ε (List.Vector α n)
  | 0, _ => pure .nil
  | _ + 1, parts => do
      let first ← p parts.head
      let rest ← visit p parts.tail
      pure (first ::ᵥ rest)

theorem visit_eq_repeatN {p : α → Parser ι ε α} {q : Parser ι ε α} {n : Nat}
    (parts : List.Vector α n) (same : ∀ part ∈ parts.toList, p part = q) :
    visit p parts = repeatN q n := by
  induction parts with
  | nil => rfl
  | @cons n first rest ih =>
      have tail := ih fun part member => same part (by simp [member])
      simp [visit, repeatN, same first (by simp), tail]

-- The parts are read by `here` and `there` instead of `p` and `q`; where one of
-- them does not behave the same, it fails.
theorem sequence_fails {γ : Type} {p here : Parser ι ε α} {q there : Parser ι ε β}
    {f : α → β → γ} {first second : Prop} {failure : ε}
    (kept : first → here = p)
    (failsFirst : ¬ first → ∀ input value rest, p.run input = .ok (value, rest) →
      here.run input = .error failure)
    (failsSecond : ¬ second → ∀ input value rest, q.run input = .ok (value, rest) →
      there.run input = .error failure)
    (stale : ¬ (first ∧ second)) (input rest : List ι) (result : γ)
    (parsed : (do
      let value ← p
      let other ← q
      pure (f value other) : Parser ι ε γ).run input = .ok (result, rest)) :
    (do
      let value ← here
      let other ← there
      pure (f value other) : Parser ι ε γ).run input = .error failure := by
  obtain ⟨value, middle, readFirst, parsed⟩ := (run_bind_ok _ _ _ _ _).mp parsed
  obtain ⟨other, final, readSecond, -⟩ := (run_bind_ok _ _ _ _ _).mp parsed
  by_cases same : first
  · rw [kept same, run_bind_of_ok _ _ _ _ _ readFirst]
    apply run_bind_error
    exact failsSecond (fun holds => stale ⟨same, holds⟩) middle other final readSecond
  · apply run_bind_error
    exact failsFirst same input value middle readFirst

theorem visit_fails {p : α → Parser ι ε α} {q : Parser ι ε α} {blank : α → Prop} {failure : ε}
    (kept : ∀ part, blank part → p part = q)
    (fails : ∀ part, ¬ blank part → ∀ input value rest, q.run input = .ok (value, rest) →
      (p part).run input = .error failure)
    {n : Nat} (parts : List.Vector α n) (stale : ¬ ∀ part ∈ parts.toList, blank part)
    (input rest : List ι) (values : List.Vector α n)
    (parsed : (repeatN q n).run input = .ok (values, rest)) :
    (visit p parts).run input = .error failure := by
  induction parts generalizing input rest with
  | nil => exact absurd (fun part member => absurd member List.not_mem_nil) stale
  | @cons n first others ih =>
      rw [List.Vector.toList_cons, List.forall_mem_cons] at stale
      exact sequence_fails (kept first) (fails first)
        (fun staleOthers input values rest => ih staleOthers input rest values)
        stale input rest values parsed

theorem visit_forall₂ {settled : α → α → Prop} {p : α → Parser ι ε α} {q : Parser ι ε α}
    (each : ∀ left value, settled left value → ∀ input rest, q.run input = .ok (value, rest) →
      (p left).run input = .ok (value, rest))
    {n : Nat} (lefts values : List.Vector α n)
    (all : List.Forall₂ settled lefts.toList values.toList) (input rest : List ι)
    (parsed : (repeatN q n).run input = .ok (values, rest)) :
    (visit p lefts).run input = .ok (values, rest) := by
  induction n generalizing input with
  | zero =>
      cases parsed
      rfl
  | succ n ih =>
      obtain ⟨left, others, rfl⟩ := lefts.exists_eq_cons
      obtain ⟨value, later, rfl⟩ := values.exists_eq_cons
      rw [List.Vector.toList_cons, List.Vector.toList_cons, List.forall₂_cons] at all
      obtain ⟨middle, here, there⟩ := repeatN_succ_ok _ _ _ _ _ _ parsed
      have begins := each left value all.1 input middle here
      have ends := ih others later all.2 middle there
      rw [visit, List.Vector.head_cons, List.Vector.tail_cons, run_bind_of_ok _ _ _ _ _ begins,
        run_bind_of_ok _ _ _ _ _ ends]
      rfl

def Reads (p : Parser ι ε α) (text : List ι) (value : α) : Prop :=
  ∀ suffix, p.run (text ++ suffix) = .ok (value, suffix)

theorem Reads.unique {p : Parser ι ε α} {text : List ι} {value other : α}
    (reads : Reads p text value) (again : Reads p text other) : value = other := by
  have same := (reads []).symm.trans (again [])
  cases same
  rfl

theorem Reads.pure (value : α) : Reads (Pure.pure value : Parser ι ε α) [] value :=
  fun _ => rfl

theorem Reads.bind {p : Parser ι ε α} {f : α → Parser ι ε β} {head tail : List ι}
    {value : α} {result : β} (first : Reads p head value)
    (second : Reads (f value) tail result) : Reads (p >>= f) (head ++ tail) result := by
  intro suffix
  rw [List.append_assoc, run_bind_of_ok p f _ _ value (first _)]
  exact second suffix

theorem Reads.map {p : Parser ι ε α} {text : List ι} {value : α} (f : α → β)
    (read : Reads p text value) : Reads (f <$> p) text (f value) := by
  intro suffix
  rw [run_map_ok]
  exact ⟨value, read suffix, rfl⟩

theorem Reads.item (short : ε) (symbol : ι) : Reads (item short) [symbol] symbol :=
  fun _ => rfl

theorem Reads.repeatN {p : Parser ι ε α} {n : Nat} (write : α → List ι)
    (values : List.Vector α n) (read : ∀ value ∈ values.toList, Reads p (write value) value) :
    Reads (Parsing.repeatN p n) (values.toList.flatMap write) values := by
  induction values with
  | nil => exact Reads.pure _
  | @cons n first rest ih =>
      rw [List.Vector.toList_cons, List.flatMap_cons]
      refine Reads.bind (read first (by simp)) ?_
      rw [← List.append_nil (List.flatMap _ _)]
      exact Reads.bind (ih fun value member => read value (by simp [member])) (Reads.pure _)

def PrefixFree (encode : α → List ι) : Prop :=
  ∀ value other rest more, encode value ++ rest = encode other ++ more →
    value = other ∧ rest = more

theorem PrefixFree.flatMap {encode : α → List ι} (free : PrefixFree encode)
    (values others : List α) (count : values.length = others.length)
    (same : values.flatMap encode = others.flatMap encode) : values = others := by
  induction values generalizing others with
  | nil => exact (List.eq_nil_of_length_eq_zero count.symm).symm
  | cons value rest ih =>
      cases others with
      | nil => cases count
      | cons other more =>
          rw [List.flatMap_cons, List.flatMap_cons] at same
          obtain ⟨rfl, later⟩ := free _ _ _ _ same
          rw [ih more (Nat.succ.inj count) later]

/-- A success depends only on the symbols taken, and on any strict prefix of them the parser runs
out of input. -/
def Delimited (short : ε) (p : Parser ι ε α) : Prop :=
  ∀ input value rest, p.run input = .ok (value, rest) →
    ∃ text, input = text ++ rest ∧ Reads p text value ∧
      ∀ start, start <+: text → start ≠ text → p.run start = .error short

theorem Delimited.pure (short : ε) (value : α) :
    Delimited short (Pure.pure value : Parser ι ε α) := by
  intro input result rest parsed
  cases parsed
  refine ⟨[], rfl, Reads.pure value, ?_⟩
  intro start inside proper
  exact absurd (List.prefix_nil.mp inside) proper

theorem Delimited.throw (short failure : ε) :
    Delimited short (throw failure : Parser ι ε α) := by
  intro input result rest parsed
  cases parsed

theorem Delimited.item (short : ε) : Delimited short (item short : Parser ι ε ι) := by
  intro input value rest parsed
  cases input with
  | nil => cases parsed
  | cons head tail =>
      cases parsed
      refine ⟨[value], rfl, Reads.item short value, ?_⟩
      intro start inside proper
      have empty : start = [] := by
        rcases List.prefix_cons_iff.mp inside with empty | ⟨rest, same, more⟩
        · exact empty
        · rw [List.prefix_nil.mp more] at same
          exact absurd same proper
      rw [empty]
      rfl

theorem prefix_append_cases {start head tail : List ι} (inside : start <+: head ++ tail) :
    (start <+: head ∧ start ≠ head) ∨ ∃ more, start = head ++ more ∧ more <+: tail := by
  rcases Nat.lt_or_ge start.length head.length with shorter | longer
  · left
    refine ⟨List.prefix_of_prefix_length_le inside (List.prefix_append head tail) shorter.le, ?_⟩
    intro same
    exact absurd (congrArg List.length same) shorter.ne
  · right
    obtain ⟨more, same⟩ :=
      List.prefix_of_prefix_length_le (List.prefix_append head tail) inside longer
    refine ⟨more, same.symm, ?_⟩
    rw [← same] at inside
    exact (List.prefix_append_right_inj head).mp inside

theorem Delimited.bind {short : ε} {p : Parser ι ε α} {f : α → Parser ι ε β}
    (first : Delimited short p) (second : ∀ value, Delimited short (f value)) :
    Delimited short (p >>= f) := by
  intro input result rest parsed
  obtain ⟨value, middle, parsedFirst, parsedSecond⟩ := (run_bind_ok p f _ _ _).mp parsed
  obtain ⟨head, rfl, readHead, shortHead⟩ := first _ _ _ parsedFirst
  obtain ⟨tail, rfl, readTail, shortTail⟩ := second value _ _ _ parsedSecond
  refine ⟨head ++ tail, by simp, readHead.bind readTail, ?_⟩
  intro start inside proper
  rcases prefix_append_cases inside with ⟨inHead, notHead⟩ | ⟨more, rfl, inTail⟩
  · exact run_bind_error p f _ _ (shortHead start inHead notHead)
  · rw [run_bind_of_ok p f _ _ _ (readHead more)]
    exact shortTail more inTail fun same => proper (by rw [same])

theorem Delimited.map {short : ε} {p : Parser ι ε α} (f : α → β)
    (delimited : Delimited short p) : Delimited short (f <$> p) := by
  rw [map_eq_pure_bind]
  exact delimited.bind fun _ => Delimited.pure short _

theorem Delimited.repeatN {short : ε} {p : Parser ι ε α} (delimited : Delimited short p)
    (n : Nat) : Delimited short (Parsing.repeatN p n) := by
  induction n with
  | zero => exact Delimited.pure short _
  | succ n ih =>
      exact delimited.bind fun _ => ih.bind fun _ => Delimited.pure short _

/-- Where `p` succeeds, its value meets `post`, and `q` takes the same symbols. -/
def Accords (p q : Parser ι ε α) (post : α → Prop) : Prop :=
  ∀ input value rest, p.run input = .ok (value, rest) →
    post value ∧ ∃ other, q.run input = .ok (other, rest)

namespace Accords

theorem pure {post : α → Prop} (value other : α) (holds : post value) :
    Accords (Pure.pure value : Parser ι ε α) (Pure.pure other) post := by
  intro input result rest parsed
  cases parsed
  exact ⟨holds, other, rfl⟩

theorem itself {post : α → Prop} {p : Parser ι ε α}
    (holds : ∀ input value rest, p.run input = .ok (value, rest) → post value) :
    Accords p p post :=
  fun input value rest parsed => ⟨holds input value rest parsed, value, parsed⟩

theorem map {post : α → Prop} {postResult : β → Prop} {p q : Parser ι ε α} (f : α → β)
    (accords : Accords p q post) (holds : ∀ value, post value → postResult (f value)) :
    Accords (f <$> p) (f <$> q) postResult := by
  intro input result rest parsed
  obtain ⟨value, inner, rfl⟩ := (run_map_ok _ _ _ _ _).mp parsed
  obtain ⟨postValue, other, taken⟩ := accords input value rest inner
  exact ⟨holds value postValue, f other, (run_map_ok _ _ _ _ _).mpr ⟨other, taken, rfl⟩⟩

theorem after {post : β → Prop} (p : Parser ι ε α) {f g : α → Parser ι ε β}
    (each : ∀ value, Accords (f value) (g value) post) : Accords (p >>= f) (p >>= g) post := by
  intro input result rest parsed
  obtain ⟨value, middle, begins, ends⟩ := (run_bind_ok _ _ _ _ _).mp parsed
  rw [run_bind_of_ok p g _ _ _ begins]
  exact each value middle result rest ends

theorem inSequence {γ : Type} {postFirst : α → Prop} {postSecond : β → Prop} {post : γ → Prop}
    {p q : Parser ι ε α} {p' q' : Parser ι ε β} (first : Accords p q postFirst)
    (second : Accords p' q' postSecond) (combine : α → β → γ)
    (holds : ∀ value other, postFirst value → postSecond other → post (combine value other)) :
    Accords
      (do
        let value ← p
        let other ← p'
        Pure.pure (combine value other))
      (do
        let value ← q
        let other ← q'
        Pure.pure (combine value other)) post := by
  intro input result rest parsed
  obtain ⟨value, middle, parsedFirst, parsed⟩ := (run_bind_ok _ _ _ _ _).mp parsed
  obtain ⟨other, final, parsedSecond, done⟩ := (run_bind_ok _ _ _ _ _).mp parsed
  cases done
  obtain ⟨postValue, value', takenFirst⟩ := first _ _ _ parsedFirst
  obtain ⟨postOther, other', takenSecond⟩ := second _ _ _ parsedSecond
  refine ⟨holds value other postValue postOther, combine value' other', ?_⟩
  rw [run_bind_of_ok _ _ _ _ _ takenFirst, run_bind_of_ok _ _ _ _ _ takenSecond]
  rfl

theorem visit {post : α → Prop} {p : α → Parser ι ε α} {q : Parser ι ε α} {n : Nat}
    (parts : List.Vector α n) (each : ∀ part ∈ parts.toList, Accords (p part) q post) :
    Accords (Parsing.visit p parts) (repeatN q n) fun values =>
      ∀ value ∈ values.toList, post value := by
  induction parts with
  | nil => exact Accords.pure _ _ fun value member => absurd member List.not_mem_nil
  | @cons n first rest ih =>
      rw [List.Vector.toList_cons, List.forall_mem_cons] at each
      refine inSequence each.1 (ih each.2) List.Vector.cons ?_
      intro value others here there
      rw [List.Vector.toList_cons, List.forall_mem_cons]
      exact ⟨here, there⟩

end Accords

def Takes (p : Parser ι ε α) (size : α → Nat) : Prop :=
  ∀ input value rest, p.run input = .ok (value, rest) → input.length = size value + rest.length

namespace Takes

theorem pure {size : α → Nat} (value : α) (none : size value = 0) :
    Takes (Pure.pure value : Parser ι ε α) size := by
  intro input result rest parsed
  cases parsed
  rw [none, Nat.zero_add]

theorem item (short : ε) : Takes (item short : Parser ι ε ι) fun _ => 1 := by
  intro input value rest parsed
  cases input with
  | nil => cases parsed
  | cons head tail =>
      cases parsed
      rw [List.length_cons, Nat.add_comm]

theorem map {size : α → Nat} {sizeResult : β → Nat} {p : Parser ι ε α} (f : α → β)
    (takes : Takes p size) (same : ∀ value, sizeResult (f value) = size value) :
    Takes (f <$> p) sizeResult := by
  intro input result rest parsed
  obtain ⟨value, inner, rfl⟩ := (run_map_ok _ _ _ _ _).mp parsed
  rw [takes _ _ _ inner, same]

theorem after {size : β → Nat} {count : Nat} {p : Parser ι ε α} {f : α → Parser ι ε β}
    (first : Takes p fun _ => count) (second : ∀ value, Takes (f value) size) :
    Takes (p >>= f) fun result => count + size result := by
  intro input result rest parsed
  obtain ⟨value, middle, begins, ends⟩ := (run_bind_ok _ _ _ _ _).mp parsed
  rw [first _ _ _ begins, second value _ _ _ ends, Nat.add_assoc]

theorem inSequence {γ : Type} {sizeFirst : α → Nat} {sizeSecond : β → Nat} {size : γ → Nat}
    {p : Parser ι ε α} {q : Parser ι ε β} (first : Takes p sizeFirst)
    (second : Takes q sizeSecond) (combine : α → β → γ)
    (sum : ∀ value other, size (combine value other) = sizeFirst value + sizeSecond other) :
    Takes (do
      let value ← p
      let other ← q
      Pure.pure (combine value other)) size := by
  intro input result rest parsed
  obtain ⟨value, middle, begins, parsed⟩ := (run_bind_ok _ _ _ _ _).mp parsed
  obtain ⟨other, final, ends, done⟩ := (run_bind_ok _ _ _ _ _).mp parsed
  cases done
  rw [first _ _ _ begins, second _ _ _ ends, sum, Nat.add_assoc]

theorem repeatN {size : α → Nat} {p : Parser ι ε α} (takes : Takes p size) (n : Nat) :
    Takes (Parsing.repeatN p n) fun values => (values.toList.map size).sum := by
  induction n with
  | zero => exact pure _ rfl
  | succ n ih => exact inSequence takes ih List.Vector.cons fun _ _ => rfl

end Takes

theorem Delimited.of_cut {short : ε} {p : Parser ι ε α} {size : α → Nat}
    (delimited : Delimited short p) (takes : Takes p size) (input missing rest : List ι) (value : α)
    (complete : p.run (input ++ missing) = .ok (value, rest)) :
    (size value ≤ input.length → ∃ left, p.run input = .ok (value, left) ∧
      left ++ missing = rest ∧ left.length = input.length - size value) ∧
    (input.length < size value → p.run input = .error short) := by
  obtain ⟨text, split, reads, shorts⟩ := delimited _ _ _ complete
  have total := takes _ _ _ complete
  have taken : text.length = size value := by
    rw [split, List.length_append] at total
    omega
  have inside : text <+: input ++ missing := ⟨rest, split.symm⟩
  constructor
  · intro enough
    obtain ⟨left, rfl⟩ : text <+: input := by
      apply List.prefix_of_prefix_length_le inside (List.prefix_append _ _)
      rwa [taken]
    rw [List.append_assoc, List.append_cancel_left_eq] at split
    refine ⟨left, reads left, split, ?_⟩
    rw [List.length_append, taken, Nat.add_sub_cancel_left]
  · intro less
    apply shorts
    · apply List.prefix_of_prefix_length_le (List.prefix_append _ _) inside
      omega
    · rintro rfl
      omega

end Parsing
