import Concordance.Proofs.Binding.Questions

/-!
# Answers unfolded

What a question means apart from what is kept and from what is open: its answer is worked out from
those to the questions that it leads to, and so on down, and it is known where that comes to an end.
Where a question leads back to itself it has no answer of this kind at any depth.

The base classes of a codebase are found while questions are asked, so that an answer can change in
the meantime although no cycle is involved. Answers are therefore unfolded in several versions of a
codebase at once, and known only where these agree, on the way down as well.

## Main definitions

* `Codebase.unfolded`: the answers down to a depth
* `Codebase.Known`, `Codebase.Settles`: the questions that have one, and names that have one
* `Follows`: work that ends as other work does, where that ends

## Main results

* `Codebase.unfolded_eq_of_known`: a known answer is the same at all depths at which it is known
* `Codebase.answer_of_known`: each version gives the known answer, from those one level deeper
-/

namespace Concordance.Binding

/-! ### Work that follows other work -/

/-- Where `y` ends, `x` ends in the same way and keeps `I`, or else, if that is allowed, fails for
its depth. -/
def Follows (I : Cache → Prop) (cut : Prop) {α : Type} (x y : Resolve α) : Prop :=
  ∀ s t, I s → (y.run t).1 ≠ .error .tooDeep →
    I (x.run s).2 ∧ ((x.run s).1 = (y.run t).1 ∨ cut ∧ (x.run s).1 = .error .tooDeep)

theorem congruence_follows (I : Cache → Prop) (cut : Prop) :
    Congruence fun _ x y => Follows I cut x y where
  pure a s t hs _ := ⟨hs, .inl rfl⟩
  throw _ _ s t hs _ := ⟨hs, .inl rfl⟩
  bind {α β x y f g} hxy hfg s t hs ht := by
    rw [run_bind] at ht ⊢
    rw [run_bind]
    have hx := hxy s t hs
    generalize x.run s = p at hx ⊢
    generalize y.run t = p' at hx ht ⊢
    obtain ⟨r, s'⟩ := p
    obtain ⟨e | a, t'⟩ := p'
    · -- The first piece of work fails, and so does the whole.
      obtain ⟨hs', rfl | ⟨hcut, rfl⟩⟩ := hx fun h => ht (by cases h; rfl)
      · exact ⟨hs', .inl rfl⟩
      · exact ⟨hs', .inr ⟨hcut, rfl⟩⟩
    · obtain ⟨hs', rfl | ⟨hcut, rfl⟩⟩ := hx nofun
      · exact hfg a s' t' hs' ht
      · exact ⟨hs', .inr ⟨hcut, rfl⟩⟩

/-! ### Answers -/

/-- Answers to questions. One that is not known is too deep. -/
abbrev Answers := Question → Except Fault (Option Denotation)

/-- Replies from given answers. -/
def Answers.questions (a : Answers) : Questions where
  exported m name := ExceptT.mk (pure (a (.ofName m name)))
  memberType owner attr aspect := ExceptT.mk (pure (a (.ofMember owner attr aspect)))

@[simp] theorem Answers.run_reply (a : Answers) (Q : Question) (s : Cache) :
    (a.questions.reply Q).run s = (a Q, s) := by
  cases Q <;> rfl

/-- The answer that versions of a codebase agree on. -/
def agreed (versions : List Codebase) (answer : Codebase → Except Fault (Option Denotation)) :
    Except Fault (Option Denotation) :=
  match versions with
  | [] => .error .tooDeep
  | c :: rest => if ∀ c' ∈ rest, answer c' = answer c then answer c else .error .tooDeep

theorem eq_agreed {versions : List Codebase}
    {answer : Codebase → Except Fault (Option Denotation)}
    (h : agreed versions answer ≠ .error .tooDeep) {c : Codebase} (hc : c ∈ versions) :
    answer c = agreed versions answer := by
  cases versions with
  | nil => cases hc
  | cons c₀ rest =>
    rw [agreed] at h ⊢
    by_cases hall : ∀ c' ∈ rest, answer c' = answer c₀
    · rw [if_pos hall]
      rcases List.mem_cons.mp hc with rfl | hc
      · rfl
      · exact hall c hc
    · rw [if_neg hall] at h
      exact absurd rfl h

theorem agreed_congr {versions : List Codebase}
    {answer answer' : Codebase → Except Fault (Option Denotation)}
    (h : ∀ c ∈ versions, answer c = answer' c) :
    agreed versions answer = agreed versions answer' := by
  cases versions with
  | nil => rfl
  | cons c rest =>
    have hc := h c List.mem_cons_self
    have hrest : (∀ c' ∈ rest, answer c' = answer c) ↔ ∀ c' ∈ rest, answer' c' = answer' c :=
      forall₂_congr fun c' hc' => by rw [h c' (List.mem_cons_of_mem _ hc'), hc]
    rw [agreed, agreed]
    by_cases hall : ∀ c' ∈ rest, answer c' = answer c
    · rw [if_pos hall, if_pos (hrest.mp hall), hc]
    · rw [if_neg hall, if_neg (mt hrest.mpr hall)]

namespace Codebase

/-- The answers that versions of a codebase agree on, from those to the questions that they lead to,
down to a depth. -/
def unfolded (versions : List Codebase) : (depth : Nat) → Answers
  | 0 => fun _ => .error .tooDeep
  | depth + 1 => fun Q =>
    agreed versions fun c => ((c.answer (unfolded versions depth).questions Q).run []).1

/-- The answer to a question is known down to a depth. -/
def Known (versions : List Codebase) (depth : Nat) (Q : Question) : Prop :=
  unfolded versions depth Q ≠ .error .tooDeep

/-- The answer for a name is known in some versions of a codebase: `r`. -/
def Settles (versions : List Codebase) (m : Nat) (name : String)
    (r : Except Fault (Option Denotation)) : Prop :=
  r ≠ .error .tooDeep ∧ ∃ depth, unfolded versions depth (.ofName m name) = r

variable {versions : List Codebase} {depth : Nat} {Q : Question}

theorem not_known_zero : ¬ Known versions 0 Q := fun h => h rfl

/-- Each version gives the known answer. -/
theorem answer_of_known (h : Known versions (depth + 1) Q) {c : Codebase} (hc : c ∈ versions) :
    ((c.answer (unfolded versions depth).questions Q).run []).1 = unfolded versions (depth + 1) Q :=
  eq_agreed h hc

/-- What is known stays so one level deeper. -/
theorem unfolded_succ (h : Known versions depth Q) :
    unfolded versions (depth + 1) Q = unfolded versions depth Q := by
  induction depth generalizing Q with
  | zero => exact absurd h not_known_zero
  | succ depth ih =>
    refine agreed_congr fun c hc => ?_
    have hknown := answer_of_known h hc
    have hfollows : Follows (fun _ => True) False
        (c.answer (unfolded versions (depth + 1)).questions Q)
        (c.answer (unfolded versions depth).questions Q) := by
      refine (congruence_follows _ False).answer (fun Q' _ s t hs ht => ?_) Q
      rw [Answers.run_reply] at ht
      rw [Answers.run_reply, Answers.run_reply, ih ht]
      exact ⟨hs, .inl rfl⟩
    obtain ⟨-, heq | ⟨hcut, -⟩⟩ := hfollows [] [] trivial (by rw [hknown]; exact h)
    · exact heq
    · exact hcut.elim

theorem unfolded_of_le (h : Known versions depth Q) {depth' : Nat} (hle : depth ≤ depth') :
    unfolded versions depth' Q = unfolded versions depth Q := by
  induction hle with
  | refl => rfl
  | step _ ih =>
    rw [← ih]
    exact unfolded_succ (by rw [Known, ih]; exact h)

theorem Known.mono (h : Known versions depth Q) {depth' : Nat} (hle : depth ≤ depth') :
    Known versions depth' Q := by
  rw [Known, unfolded_of_le h hle]
  exact h

/-- A known answer is the same at all depths at which it is known. -/
theorem unfolded_eq_of_known {depth' : Nat} (h : Known versions depth Q)
    (h' : Known versions depth' Q) : unfolded versions depth Q = unfolded versions depth' Q := by
  rcases Nat.le_total depth depth' with hle | hle
  · exact (unfolded_of_le h hle).symm
  · exact unfolded_of_le h' hle

end Codebase

end Concordance.Binding
