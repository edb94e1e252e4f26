import Concordance.Proofs.Binding.Depth
import Concordance.Proofs.Binding.Keeping

/-!
# Which answers are known

An answer is known if it can be unfolded down to some depth. That depth need not be guessed: the one
that a codebase is asked down to is enough. And in a codebase whose base classes have all been found
it comes to the same to say that the question can be answered without a way out, where an open
question is not passed over but a failure. So the answers that are known are those for which asking
never comes back to a question that is open.

## Main definitions

* `Codebase.strict`: replies without a way out

## Main results

* `Codebase.settles_iff`: known answers are found by unfolding to the depth of a codebase
* `Codebase.settles_iff_strict`: and are those that need no way out
-/

namespace Concordance.Binding

namespace Codebase

variable {versions : List Codebase} {c : Codebase} {asked : Open} {Q : Question}

/-! ### How deep to look -/

/-- A known answer is known down to a depth that there is room for. -/
theorem known_of_room (houtlined : c.Outlined)
    (hversions : ∀ c' ∈ versions, ∃ bases, c' = { c with bases }) {depth : Nat} (hQ : c.Asks Q)
    (hlead : Leads versions c asked Q) (hdepth : c.room asked Q ≤ depth) {d : Nat}
    (hknown : Known versions d Q) : Known versions depth Q := by
  induction depth generalizing asked Q d with
  | zero =>
    have : 0 < c.room asked Q := by cases Q <;> exact Nat.succ_pos _
    omega
  | succ depth ih =>
    obtain ⟨l, hl, hleast⟩ := exists_least_known hknown
    have hopen : ¬ asked.Has Q := fun h => hlead.not_known hQ h d hknown
    have heq : unfolded versions (depth + 1) Q = unfolded versions (l + 1) Q := by
      refine agreed_congr fun c' hc' => ?_
      have hanswer := answer_of_known hl hc'
      obtain ⟨bases, rfl⟩ := hversions c' hc'
      have hfollows := answer_of_room (congruence_follows (fun _ => True) False)
        (c := { c with bases }) houtlined hQ hopen (q := (unfolded versions depth).questions)
        (p := (unfolded versions l).questions) fun Q' hQ' hroom s t _ ht => by
          rw [Answers.run_reply] at ht
          have hroom' : c.room (asked.add Q) Q' < c.room asked Q := hroom
          have hknown' : Known versions depth Q' :=
            ih hQ' (hlead.add_of_known hQ hleast ht) (by omega) ht
          rw [Answers.run_reply, Answers.run_reply, unfolded_eq_of_known hknown' ht]
          exact ⟨trivial, .inl rfl⟩
      obtain ⟨-, heq | ⟨hcut, -⟩⟩ := hfollows [] [] trivial (by rw [hanswer]; exact hl)
      · exact heq
      · exact hcut.elim
    rw [Known, heq]
    exact hl

/-- **Whether an answer is known can be found out**: by looking as deep as a codebase is asked. -/
theorem settles_iff (houtlined : c.Outlined)
    (hversions : ∀ c' ∈ versions, ∃ bases, c' = { c with bases }) {m : Nat} {name : String}
    {r : Except Fault (Option Denotation)} :
    Settles versions m name r ↔
      r ≠ .error .tooDeep ∧ unfolded versions c.depth (.ofName m name) = r := by
  refine ⟨fun ⟨hr, d, hd⟩ => ⟨hr, ?_⟩, fun ⟨hr, h⟩ => ⟨hr, c.depth, h⟩⟩
  have hknown : Known versions d (.ofName m name) := by rwa [Known, hd]
  have hdepth : Known versions c.depth (.ofName m name) :=
    known_of_room houtlined hversions trivial leads_nothing (room_le_depth c _) hknown
  rw [unfolded_eq_of_known hdepth hknown, hd]

/-! ### Without a way out -/

/-- Replies without a way out: an open question is a failure, and nothing is kept. -/
def strict (c : Codebase) : (depth : Nat) → Open → Questions
  | 0, _ => ⟨fun _ _ => throw .tooDeep, fun _ _ _ => throw .tooDeep⟩
  | depth + 1, asked =>
    let reply := fun Q =>
      if asked.Has Q then throw .tooDeep else c.answer (c.strict depth (asked.add Q)) Q
    ⟨fun m name => reply (.ofName m name),
      fun owner attr aspect => reply (.ofMember owner attr aspect)⟩

theorem reply_strict (c : Codebase) (depth : Nat) (asked : Open) (Q : Question) :
    (c.strict (depth + 1) asked).reply Q =
      if asked.Has Q then throw .tooDeep else c.answer (c.strict depth (asked.add Q)) Q := by
  cases Q <;> rfl

theorem unfolded_singleton (c : Codebase) (depth : Nat) (Q : Question) :
    unfolded [c] (depth + 1) Q = ((c.answer (unfolded [c] depth).questions Q).run []).1 := by
  simp [unfolded, agreed]

/-- Where a strict reply ends, unfolding ends with the same answer. -/
theorem unfolded_follows_strict (c : Codebase) (depth : Nat) (asked : Open) (Q : Question) :
    Follows (fun _ => True) False ((unfolded [c] depth).questions.reply Q)
      ((c.strict depth asked).reply Q) := by
  induction depth generalizing asked Q with
  | zero =>
    intro s t _ ht
    exact absurd (by cases Q <;> rfl) ht
  | succ depth ih =>
    intro s t _ ht
    rw [reply_strict] at ht ⊢
    by_cases hopen : asked.Has Q
    · rw [if_pos hopen] at ht
      exact absurd rfl ht
    · rw [if_neg hopen] at ht ⊢
      have hfollows := (congruence_follows (fun _ => True) False).answer (c := c)
        (fun Q' _ => ih (asked.add Q) Q') Q
      rw [Answers.run_reply, unfolded_singleton]
      exact hfollows [] t trivial ht

/-- A known answer is found by a strict reply that there is room for. -/
theorem strict_follows_unfolded (houtlined : c.Outlined) {depth : Nat} (hQ : c.Asks Q)
    (hlead : Leads [c] c asked Q) (hdepth : c.room asked Q ≤ depth) (d : Nat) :
    Follows (fun _ => True) False ((c.strict depth asked).reply Q)
      ((unfolded [c] d).questions.reply Q) := by
  intro s t _ ht
  rw [Answers.run_reply] at ht ⊢
  refine ⟨trivial, .inl ?_⟩
  induction depth generalizing asked Q d s with
  | zero =>
    have : 0 < c.room asked Q := by cases Q <;> exact Nat.succ_pos _
    omega
  | succ depth ih =>
    obtain ⟨l, hl, hleast⟩ := exists_least_known ht
    have hopen : ¬ asked.Has Q := fun h => hlead.not_known hQ h d ht
    have hfollows := answer_of_room (congruence_follows (fun _ => True) False) houtlined hQ hopen
      (q := c.strict depth (asked.add Q)) (p := (unfolded [c] l).questions)
      fun Q' hQ' hroom s t _ ht => by
        rw [Answers.run_reply] at ht ⊢
        exact ⟨trivial, .inl (ih hQ' (hlead.add_of_known hQ hleast ht) (by omega) l s ht)⟩
    have hanswer := unfolded_singleton c l Q
    obtain ⟨-, heq | ⟨hcut, -⟩⟩ := hfollows s [] trivial (by rw [← hanswer]; exact hl)
    · rw [reply_strict, if_neg hopen, heq, ← hanswer]
      exact unfolded_eq_of_known hl ht
    · exact hcut.elim

/-- **The answers that are known are those that need no way out**: asking for them never comes back
to an open question. -/
theorem settles_iff_strict (houtlined : c.Outlined) {m : Nat} {name : String}
    {r : Except Fault (Option Denotation)} :
    Settles [c] m name r ↔
      r ≠ .error .tooDeep ∧ (((c.strict c.depth {}).exported m name).run []).1 = r := by
  constructor
  · rintro ⟨hr, d, hd⟩
    refine ⟨hr, ?_⟩
    have hfollows := strict_follows_unfolded houtlined (Q := .ofName m name) trivial leads_nothing
      (c.room_le_depth _) d
    have hknown :
        ((Answers.questions (unfolded [c] d)).reply (.ofName m name)).run [] = (r, []) := by
      rw [Answers.run_reply, hd]
    obtain ⟨-, heq | ⟨hcut, -⟩⟩ := hfollows [] [] trivial (by rw [hknown]; exact hr)
    · exact heq.trans (by rw [hknown])
    · exact hcut.elim
  · rintro ⟨hr, h⟩
    refine ⟨hr, c.depth, ?_⟩
    have hfollows := unfolded_follows_strict c c.depth {} (.ofName m name)
    obtain ⟨-, heq | ⟨hcut, -⟩⟩ := hfollows [] [] trivial (by rw [← h] at hr; exact hr)
    · rw [Answers.run_reply] at heq
      exact heq.trans h
    · exact hcut.elim

end Codebase

end Concordance.Binding
