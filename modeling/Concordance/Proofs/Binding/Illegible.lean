import Concordance.Proofs.Binding.Hints
import Concordance.Proofs.Binding.Termination

/-!
# Hints that cannot be read hold illegible texts

A hint fails to be read for one reason: it is written as a text, or holds one, that nothing can be
read from. Such a text holds the null character, which no source may, or halves of surrogate pairs,
which no source can be encoded with. Escapes can write both in a source that holds neither, and
within the text of a hint again in the text of a hint in it. All other texts are hints that say
something or nothing.

The hints of a module are those of expressions in it, so that a failure leads back to an expression
with such a text.

## Main definitions

* `Node.HoldsIllegible`: expressions with such a text for a hint
* `Hint.HoldsIllegible`: the hints that they are

## Main results

* `Hint.holdsIllegible_of_mem_faults`: where the illegible text is
* `holdsIllegible_of_mem_hintsOf`: so are the hints of modules that cannot be read
-/

namespace Concordance.Syntax

open Binding Text

theorem stripChars_subset (cs : List Char) : stripChars cs ⊆ cs := by
  intro c hc
  rw [stripChars, List.mem_reverse] at hc
  have hc := (List.dropWhile_sublist _).subset hc
  rw [List.mem_reverse] at hc
  exact (List.dropWhile_sublist _).subset hc

/-- An expression that stands for a hint is an illegible text, or a part of it is that stands for a
hint, or one that is read from a text. -/
inductive Node.HoldsIllegible : Illegible → Node → Prop
  | null {p : Place} {s : String} (h : '\x00' ∈ s.toList) :
    HoldsIllegible .nullCharacter (.constant p (.string s))
  | halves {p : Place} {points : List Nat} :
    HoldsIllegible (.halves points) (.constant p (.halved points))
  | within {why : Illegible} {p : Place} {s : String} {n : Node}
    (hread : parseExpression (strip s) = .ok n) (h : HoldsIllegible why n) :
    HoldsIllegible why (.constant p (.string s))
  | left {why : Illegible} {p : Place} {left right : Node} (h : HoldsIllegible why left) :
    HoldsIllegible why (.binary p .bitOr left right)
  | right {why : Illegible} {p : Place} {left right : Node} (h : HoldsIllegible why right) :
    HoldsIllegible why (.binary p .bitOr left right)
  | item {why : Illegible} {p p' : Place} {type n : Node} {items : List Node} {u u' : Use}
    (hn : n ∈ items) (h : HoldsIllegible why n) :
    HoldsIllegible why (.subscript p type (.tuple p' items u) u')
  | argument {why : Illegible} {p : Place} {type argument : Node} {u : Use}
    (h : HoldsIllegible why argument) : HoldsIllegible why (.subscript p type argument u)

end Concordance.Syntax

namespace Concordance.Binding

open Syntax Text

/-! ### Texts of hints -/

namespace Hint

variable {why : Illegible}

/-- A hint is that of an expression with an illegible text. -/
def HoldsIllegible (why : Illegible) (h : Hint) : Prop := ∃ n, h = .ofNode n ∧ n.HoldsIllegible why

theorem faults_foldr_either (hints : List Hint) :
    (hints.foldr either nothing).faults = hints.flatMap faults := by
  induction hints with
  | nil => rfl
  | cons h rest ih => rw [List.foldr_cons, faults, ih, List.flatMap_cons]

/-- A generic type has the faults of its arguments only. -/
theorem exists_of_mem_faults_generic {name : Option String} {hints : List Hint}
    (h : why ∈ (generic name hints).faults) : ∃ hint ∈ hints, why ∈ hint.faults := by
  cases hints with
  | nil => cases h
  | cons first rest =>
    cases name with
    | none => cases h
    | some name =>
      rw [generic] at h
      split at h
      · exact ⟨first, List.mem_cons_self, h⟩
      · split at h
        · rw [faults_foldr_either] at h
          exact List.mem_flatMap.mp h
        · split at h
          · exact ⟨first, List.mem_cons_self, h⟩
          · cases h

/-- An expression has the faults of its texts only, and of those with halves. -/
theorem holdsIllegible_of_mem_faults_ofNodeWith {text : String → Hint} {n : Node}
    (htext : ∀ p s, why ∈ (text s).faults → Node.HoldsIllegible why (.constant p (.string s)))
    (h : why ∈ (ofNodeWith text n).faults) : n.HoldsIllegible why := by
  revert h
  refine ofNodeWith.induct
    (fun n => why ∈ (ofNodeWith text n).faults → n.HoldsIllegible why)
    (fun ns => ∀ hint ∈ ofNodesWith text ns, why ∈ hint.faults → ∃ n ∈ ns, n.HoldsIllegible why)
    ?string ?halved ?or ?tuple ?subscript ?other ?nil ?cons n
  case string =>
    intro p s h
    rw [ofNodeWith] at h
    exact htext p s h
  case halved =>
    intro p points h
    rw [ofNodeWith] at h
    obtain rfl := List.mem_singleton.mp h
    exact .halves
  case or =>
    intro p left right ihleft ihright h
    rw [ofNodeWith] at h
    exact (List.mem_append.mp h).elim (fun h => .left (ihleft h)) fun h => .right (ihright h)
  case tuple =>
    intro p type p' items u u' ih h
    rw [ofNodeWith] at h
    obtain ⟨hint, hhint, hwhy⟩ := exists_of_mem_faults_generic h
    obtain ⟨n, hn, hholds⟩ := ih hint hhint hwhy
    exact .item hn hholds
  case subscript =>
    intro p type argument u hargument ih h
    rw [ofNodeWith.eq_5 _ _ _ _ _ hargument] at h
    obtain ⟨hint, hhint, hwhy⟩ := exists_of_mem_faults_generic h
    obtain rfl := List.mem_singleton.mp hhint
    exact .argument (ih hwhy)
  case other =>
    intro n hstring hhalved hor htuple hsubscript h
    rw [ofNodeWith.eq_6 _ _ hstring hhalved hor htuple hsubscript] at h
    cases h
  case nil =>
    intro hint hhint
    rw [ofNodesWith] at hhint
    cases hhint
  case cons =>
    intro n rest ih ihrest hint hhint hwhy
    rw [ofNodesWith] at hhint
    rcases List.mem_cons.mp hhint with rfl | hhint
    · exact ⟨n, List.mem_cons_self, ih hwhy⟩
    · obtain ⟨n', hn', hholds⟩ := ihrest hint hhint hwhy
      exact ⟨n', List.mem_cons_of_mem n hn', hholds⟩

/-- A text has the fault that it holds the null character, and those of what is read from it. -/
theorem holdsIllegible_of_mem_faults_ofText {depth : Nat} (p : Place) {s : String}
    (h : why ∈ (ofText depth s).faults) : Node.HoldsIllegible why (.constant p (.string s)) := by
  induction depth generalizing p s with
  | zero => cases h
  | succ depth ih =>
    rw [ofText] at h
    split at h
    · rename_i n hn
      exact .within hn (holdsIllegible_of_mem_faults_ofNodeWith (fun p s => ih p) h)
    · rename_i hn
      obtain rfl := List.mem_singleton.mp h
      have hnull := readSource_eq_nullCharacter_iff.mp hn
      rw [strip, String.toList_ofList] at hnull
      exact .null (stripChars_subset _ hnull)
    · cases h

/-- **A hint that cannot be read holds an illegible text**, for each of its faults. -/
theorem holdsIllegible_of_mem_faults {n : Node} (h : why ∈ (ofNode n).faults) :
    n.HoldsIllegible why :=
  holdsIllegible_of_mem_faults_ofNodeWith
    (fun p _ => holdsIllegible_of_mem_faults_ofText p) h

/-- A hint is that of an expression, or there is none. -/
def IsWritten (h : Hint) : Prop := h = .nothing ∨ ∃ n, h = .ofNode n

@[simp] theorem isWritten_ofNode (n : Node) : (ofNode n).IsWritten := .inr ⟨n, rfl⟩

theorem IsWritten.holdsIllegible {h : Hint} (hwritten : h.IsWritten) (hwhy : why ∈ h.faults) :
    h.HoldsIllegible why := by
  rcases hwritten with rfl | ⟨n, rfl⟩
  · cases hwhy
  · exact ⟨n, rfl, holdsIllegible_of_mem_faults hwhy⟩

end Hint

/-! ### Hints of steps -/

/-- The hints of parameters are those of expressions. -/
def Signature.IsWritten (f : Signature) : Prop := ∀ p ∈ f.parameters, p.2.IsWritten

/-- The hints of a step are those of expressions. -/
def Step.IsWritten : Step → Prop
  | hinted _ hint _ => hint.IsWritten
  | openFunction _ f => f.IsWritten
  | _ => True

/-- The hints of some steps are those of expressions. -/
def StepsWritten (xs : List Step) : Prop := ∀ s ∈ xs, s.IsWritten

theorem Step.IsWritten.of_mem_hints {s : Step} (hs : s.IsWritten) : ∀ h ∈ s.hints, h.IsWritten := by
  cases s with
  | hinted name hint value => exact List.forall_mem_singleton.mpr hs
  | openFunction name f => exact List.forall_mem_map.mpr hs
  | _ => exact List.forall_mem_nil _

section

@[simp] theorem isWritten_signature (name : String) (parameters : Node) (decorators : List Node) :
    (signature name parameters decorators).IsWritten := by
  intro p hp
  obtain ⟨n, -, hp⟩ := List.mem_filterMap.mp hp
  unfold parameter? at hp
  split at hp
  · cases hp
    exact .inl rfl
  · cases hp
    exact Hint.isWritten_ofNode _
  · cases hp

@[simp] theorem stepsWritten_nil : StepsWritten [] := nofun

@[simp] theorem stepsWritten_cons {s : Step} {xs : List Step} :
    StepsWritten (s :: xs) ↔ s.IsWritten ∧ StepsWritten xs := by
  simp [StepsWritten]

@[simp] theorem stepsWritten_append {xs ys : List Step} :
    StepsWritten (xs ++ ys) ↔ StepsWritten xs ∧ StepsWritten ys := by
  simp [StepsWritten, or_imp, forall_and]

@[simp] theorem stepsWritten_map {α : Type} {f : α → Step} (l : List α) :
    StepsWritten (l.map f) ↔ ∀ a ∈ l, (f a).IsWritten := by
  simp [StepsWritten]

@[simp] theorem stepsWritten_ite {p : Prop} [Decidable p] {xs ys : List Step} :
    StepsWritten (if p then xs else ys) ↔ (p → StepsWritten xs) ∧ (¬ p → StepsWritten ys) := by
  split <;> simp_all

@[simp] theorem stepsWritten_nameImports (level : Nat) (source : Option String)
    (names : List Alias) : StepsWritten (names.filterMap (nameImportStep? level source)) := by
  intro s hs
  obtain ⟨a, -, hs⟩ := List.mem_filterMap.mp hs
  rw [nameImportStep?] at hs
  split at hs
  · cases hs
  · cases hs
    trivial

/-- The hints of all steps of a tree are those of expressions. -/
theorem stepsWritten_steps (n : Node) : StepsWritten (steps n) := by
  -- each tree passes on the steps of its parts, and hints are in few of its own
  apply steps.induct (fun n => StepsWritten (steps n)) (fun n => StepsWritten (stepsOfHints n))
    (fun o => StepsWritten (stepsOption o)) (fun ns => StepsWritten (stepsAll ns))
    (fun first ns => StepsWritten (stepsOfGenerators first ns))
    (fun ns => StepsWritten (stepsOfFirstIter ns)) (fun n => StepsWritten (stepsOfDefaults n))
  all_goals
    intros
    simp_all [steps, stepsAll, stepsOption, stepsOfDefaults, stepsOfHints, stepsOfFirstIter,
      stepsOfGenerators, Step.IsWritten, moduleImportStep]

theorem stepsWritten_stepsAll (ns : List Node) : StepsWritten (stepsAll ns) := by
  induction ns with
  | nil => exact stepsWritten_nil
  | cons n rest ih => exact stepsWritten_append.mpr ⟨stepsWritten_steps n, ih⟩

end

/-- The hints of a module that cannot be read hold illegible texts. -/
theorem holdsIllegible_of_mem_hintsOf {d : ModuleDecls} {h : Hint} (hmem : h ∈ hintsOf d)
    {why : Illegible} (hwhy : why ∈ h.faults) : h.HoldsIllegible why := by
  refine Hint.IsWritten.holdsIllegible ?_ hwhy
  rcases List.mem_append.mp hmem with hmem | hmem
  · rcases List.mem_append.mp hmem with hmem | hmem
    · obtain ⟨stmt, -, hstmt⟩ := List.mem_filterMap.mp hmem
      unfold hintOfStatement? at hstmt
      split at hstmt
      · cases hstmt
        exact Hint.isWritten_ofNode _
      · cases hstmt
    · obtain ⟨k, -, hk⟩ := List.mem_flatMap.mp hmem
      obtain ⟨e, -, rfl⟩ := List.mem_map.mp hk
      exact Hint.isWritten_ofNode e.2
  · obtain ⟨s, hs, hh⟩ := List.mem_flatMap.mp hmem
    exact (stepsWritten_stepsAll _ s hs).of_mem_hints h hh

end Concordance.Binding
