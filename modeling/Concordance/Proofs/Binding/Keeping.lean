import Concordance.Proofs.Binding.Unfolding
import Mathlib.Data.Nat.Find

/-!
# The answers kept

An answer for a name of a module is kept for good, also when it was found while other questions were
open. A question that leads back to an open one has no answer along that path, so what is kept may
depend on what was asked first. It does not where the answer is known, that is, where following the
questions that it leads to comes to an end.

## Why

An open question that is known leads to known questions only, and each of them is known one level
higher. So a question that is known is never met again below itself, and is answered from those that
it leads to as if nothing were kept; what is kept of them has been found in the same way. Where an
open question is not known, nothing is said about its answer, and nothing above it is known either.

## Main definitions

* `Codebase.Right`: the answers kept are the known ones, as far as there are any
* `Codebase.Leads`: what open questions have to do with the one that is asked

## Main results

* `Codebase.keeps_and_follows`: replies keep that, and are the known ones
-/

namespace Concordance.Binding

namespace Codebase

/-! ### The right answers -/

/-- Work that keeps `I`. -/
def Keeps (I : Cache → Prop) {α : Type} (x : Resolve α) : Prop := ∀ s, I s → I (x.run s).2

theorem Keeps.bind {I : Cache → Prop} {α β : Type} {x : Resolve α} {f : α → Resolve β}
    (hx : Keeps I x) (hf : ∀ a, Keeps I (f a)) : Keeps I (x >>= f) := by
  intro s hs
  rw [run_bind]
  have hs' := hx s hs
  generalize x.run s = ran at hs' ⊢
  obtain ⟨e | a, s'⟩ := ran
  · exact hs'
  · exact hf a s' hs'

theorem congruence_keeps (I : Cache → Prop) : Congruence fun _ x _ => Keeps I x where
  pure _ _ hs := hs
  throw _ _ _ hs := hs
  bind hx hf := hx.bind hf

/-- The answers kept are the known ones, as far as these are known. -/
def Right (versions : List Codebase) (s : Cache) : Prop :=
  ∀ Q kept depth, Q.kept? s = some kept → Known versions depth Q →
    unfolded versions depth Q = .ok kept

variable {versions : List Codebase}

theorem right_nil (versions : List Codebase) : Right versions [] := by
  intro Q kept depth hkept
  cases Q <;> cases hkept

theorem kept?_keep (Q Q' : Question) (found : Option Denotation) (s : Cache) :
    Q'.kept? (Q.keep found s) = Q'.kept? s ∨ Q' = Q ∧ Q'.kept? (Q.keep found s) = some found := by
  cases Q with
  | ofMember owner attr aspect => exact .inl rfl
  | ofName m name =>
    cases Q' with
    | ofMember owner attr aspect => exact .inl rfl
    | ofName m' name' =>
      simp only [Question.keep, Question.kept?, Table.find?_insert]
      by_cases h : (m, name) = (m', name')
      · obtain ⟨rfl, rfl⟩ := Prod.mk.inj h
        exact .inr ⟨rfl, by rw [if_pos rfl]⟩
      · exact .inl (by rw [if_neg h])

theorem Right.keep {s : Cache} (h : Right versions s) {Q : Question} {found : Option Denotation}
    (hfound : ∀ depth, Known versions depth Q → unfolded versions depth Q = .ok found) :
    Right versions (Q.keep found s) := by
  intro Q' kept depth hkept hknown
  rcases kept?_keep Q Q' found s with heq | ⟨rfl, heq⟩
  · exact h Q' kept depth (heq ▸ hkept) hknown
  · obtain rfl : found = kept := Option.some.inj (heq.symm.trans hkept)
    exact hfound depth hknown

/-! ### Open questions -/

/-- An open question that is known leads to this one, which is then known one level higher. -/
def Leads (versions : List Codebase) (c : Codebase) (asked : Open) (Q : Question) : Prop :=
  ∀ Q' depth, asked.Has Q' → c.Asks Q' → Known versions (depth + 1) Q' → Known versions depth Q

variable {c : Codebase} {asked : Open} {Q : Question}

theorem leads_nothing : Leads versions c {} Q := by
  intro Q' depth hopen
  cases Q' <;> cases hopen

/-- A known question is never met while it is open. -/
theorem Leads.not_known (h : Leads versions c asked Q) (hQ : c.Asks Q) (hopen : asked.Has Q)
    (depth : Nat) : ¬ Known versions depth Q := by
  induction depth with
  | zero => exact not_known_zero
  | succ depth ih => exact fun hknown => ih (h Q depth hopen hQ hknown)

theorem has_add {Q' : Question} (hQ : c.Asks Q) (hQ' : c.Asks Q') (h : (asked.add Q).Has Q') :
    Q' = Q ∨ asked.Has Q' := by
  cases Q with
  | ofName m name =>
    cases Q' with
    | ofMember owner attr aspect => exact .inr h
    | ofName m' name' =>
      rcases List.mem_cons.mp h with heq | h
      · obtain ⟨rfl, rfl⟩ := Prod.mk.inj heq
        exact .inl rfl
      · exact .inr h
  | ofMember owner attr aspect =>
    cases Q' with
    | ofName m' name' => exact .inr h
    | ofMember owner' attr' aspect' =>
      rcases List.mem_cons.mp h with heq | h
      · obtain ⟨rfl, rfl⟩ := Prod.mk.inj heq
        exact .inl (by rw [hQ'.aspect_eq hQ])
      · exact .inr h

/-- A known question has a least depth at which it is. -/
theorem exists_least_known {d : Nat} (h : Known versions d Q) :
    ∃ l, Known versions (l + 1) Q ∧ ∀ d, Known versions d Q → l < d := by
  classical
  have hknown : ∃ d, Known versions d Q := ⟨d, h⟩
  obtain ⟨l, hl⟩ : ∃ l, Nat.find hknown = l + 1 :=
    Nat.exists_eq_succ_of_ne_zero fun h => not_known_zero (h ▸ Nat.find_spec hknown)
  refine ⟨l, hl ▸ Nat.find_spec hknown, fun d hd => ?_⟩
  have := Nat.find_min' hknown hd
  omega

/-- Where a question is not known at all, no question that it leads to is below a known one. -/
theorem Leads.add_of_not_known (h : Leads versions c asked Q) (hQ : c.Asks Q)
    (hnot : ∀ depth, ¬ Known versions depth Q) (Q' : Question) :
    Leads versions c (asked.add Q) Q' := by
  intro Q₀ depth hopen hQ₀ hknown
  rcases has_add hQ hQ₀ hopen with rfl | hopen
  · exact absurd hknown (hnot _)
  · exact absurd (h Q₀ depth hopen hQ₀ hknown) (hnot depth)

/-- A question that is known one level higher than a known one may be asked while that is open. -/
theorem Leads.add_of_known (h : Leads versions c asked Q) (hQ : c.Asks Q) {depth : Nat}
    (hleast : ∀ d, Known versions d Q → depth < d) {Q' : Question}
    (hknown : Known versions depth Q') : Leads versions c (asked.add Q) Q' := by
  intro Q₀ d hopen hQ₀ hknown₀
  rcases has_add hQ hQ₀ hopen with rfl | hopen
  · exact hknown.mono (Nat.le_of_lt_succ (hleast _ hknown₀))
  · exact hknown.mono (Nat.le_of_lt (hleast d (h Q₀ d hopen hQ₀ hknown₀)))

/-! ### Replies -/

/-- Where the questions that it leads to are answered rightly, a question is. -/
theorem keeps_and_follows_answer {q : Questions} (hc : c ∈ versions) (hQ : c.Asks Q)
    (hlead : Leads versions c asked Q)
    (hq : ∀ Q', c.Asks Q' → Leads versions c (asked.add Q) Q' →
      Keeps (Right versions) (q.reply Q') ∧
        ∀ depth, Follows (Right versions) True (q.reply Q')
          ((unfolded versions depth).questions.reply Q')) :
    Keeps (Right versions) (c.answer q Q) ∧
      ∀ s depth, Right versions s → Known versions depth Q →
        ((c.answer q Q).run s).1 = unfolded versions depth Q ∨
          ((c.answer q Q).run s).1 = .error .tooDeep := by
  by_cases hknown : ∃ depth, Known versions depth Q
  case neg =>
    have hnot : ∀ depth, ¬ Known versions depth Q := not_exists.mp hknown
    refine ⟨?_, fun s depth _ h => absurd h (hnot depth)⟩
    exact (congruence_keeps _).answer (p := q)
      (fun Q' hQ' => (hq Q' hQ' (hlead.add_of_not_known hQ hnot Q')).1) Q
  obtain ⟨d, hd⟩ := hknown
  obtain ⟨depth, hQknown, hleast⟩ := exists_least_known hd
  have hfollows : Follows (Right versions) True (c.answer q Q)
      (c.answer (unfolded versions depth).questions Q) := by
    refine (congruence_follows _ True).answer (fun Q' hQ' s t hs ht => ?_) Q
    have hQ'known : Known versions depth Q' := by rwa [Answers.run_reply] at ht
    exact (hq Q' hQ' (hlead.add_of_known hQ hleast hQ'known)).2 depth s t hs ht
  have hanswer := answer_of_known hQknown hc
  have hrun : ∀ s, Right versions s → Right versions ((c.answer q Q).run s).2 ∧
      (((c.answer q Q).run s).1 = unfolded versions (depth + 1) Q ∨
        ((c.answer q Q).run s).1 = .error .tooDeep) := by
    intro s hs
    obtain ⟨hkeeps, heq⟩ := hfollows s [] hs (by rw [hanswer]; exact hQknown)
    exact ⟨hkeeps, heq.imp (·.trans hanswer) And.right⟩
  refine ⟨fun s hs => (hrun s hs).1, fun s d hs hd => ?_⟩
  rw [unfolded_eq_of_known hd hQknown]
  exact (hrun s hs).2

/-- **Replies keep the right answers, and are the known ones.** -/
theorem keeps_and_follows (hc : c ∈ versions) (depth : Nat) (hQ : c.Asks Q)
    (hlead : Leads versions c asked Q) :
    Keeps (Right versions) ((c.questions depth asked).reply Q) ∧
      ∀ d, Follows (Right versions) True ((c.questions depth asked).reply Q)
        ((unfolded versions d).questions.reply Q) := by
  induction depth generalizing asked Q with
  | zero =>
    have hrun : ∀ s, ((c.questions 0 asked).reply Q).run s = (.error .tooDeep, s) := by
      intro s
      cases Q <;> rfl
    refine ⟨fun s hs => by rw [hrun]; exact hs, fun d s t hs _ => ?_⟩
    rw [hrun]
    exact ⟨hs, .inr ⟨trivial, rfl⟩⟩
  | succ depth ih =>
    obtain ⟨hkeeps, hanswer⟩ := keeps_and_follows_answer (q := c.questions depth (asked.add Q))
      hc hQ hlead fun Q' hQ' hlead' => ih hQ' hlead'
    have hrun : ∀ s, Right versions s →
        Right versions (((c.questions (depth + 1) asked).reply Q).run s).2 ∧
          ∀ d, Known versions d Q →
            (((c.questions (depth + 1) asked).reply Q).run s).1 = unfolded versions d Q ∨
              (((c.questions (depth + 1) asked).reply Q).run s).1 = .error .tooDeep := by
      intro s hs
      rw [run_reply]
      cases hkept : Q.kept? s with
      | some kept => exact ⟨hs, fun d hd => .inl (hs Q kept d hkept hd).symm⟩
      | none =>
        dsimp only
        split
        case isTrue hopen => exact ⟨hs, fun d hd => absurd hd (hlead.not_known hQ hopen d)⟩
        case isFalse =>
          have hs' := hkeeps s hs
          have heq := fun d => hanswer s d hs
          generalize (c.answer (c.questions depth (asked.add Q)) Q).run s = p at hs' heq ⊢
          obtain ⟨e | found, s'⟩ := p
          · exact ⟨hs', fun d hd => heq d hd⟩
          · refine ⟨hs'.keep fun d hd => ?_, fun d hd => heq d hd⟩
            exact ((heq d hd).resolve_right nofun).symm
    refine ⟨fun s hs => (hrun s hs).1, fun d s t hs ht => ?_⟩
    rw [Answers.run_reply] at ht ⊢
    exact ⟨(hrun s hs).1, ((hrun s hs).2 d ht).imp_right fun h => ⟨trivial, h⟩⟩

theorem keeps_ask (hc : c ∈ versions) (hQ : c.Asks Q) :
    Keeps (Right versions) (c.ask.reply Q) :=
  (keeps_and_follows hc c.depth hQ leads_nothing).1

end Codebase

end Concordance.Binding
