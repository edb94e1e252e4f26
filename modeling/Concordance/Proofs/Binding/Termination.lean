import Concordance.Proofs.Binding.History
import Concordance.Proofs.Syntax.Expressions

/-!
# Everything that is asked comes to an end

There are two ways in which resolving names could go on for ever. Questions lead to questions, from
module to module and from member to member, through cycles of every kind; and a hint may be a text
that holds a hint that is a text. Both are written down here with a bound, and it is shown that the
bound is none: with any larger one the work ends in the same way, and with a smaller one it ends in
the same way or runs out. So what is asked has one outcome, that of the recursion without a bound.

For questions the bound is made from the supply of questions that are not open yet, as in
`Codebase.room`. For texts it is their length, since a text in an expression is shorter than its
source.

## Main definitions

* `Hint.Reads`, `Hint.ReadsNode`: what texts and expressions are as hints, without a bound
* `Continues`: work that does what other work does with less depth
* `EndsWith`: work that is given a depth has an outcome that the depth has no part in

## Main results

* `Hint.readsNode_iff`: every expression is one hint, that which is found with the bound
* `Query.endsWith`: whatever is open and whatever is kept, what is asked has one outcome
* `Query.comes_to_an_end`: both at once
-/

namespace Concordance.Binding

open Syntax Text

/-! ### Texts inside each other -/

namespace Hint

/-- What a text is as a hint. A text in it is looked at as a text of its own. -/
inductive Reads : String → Hint → Prop
  | unreadable {s : String} (h : parseExpression (strip s) = .error .nullCharacter) :
    Reads s (.unreadable .nullCharacter)
  | malformed {s : String} (h : parseExpression (strip s) = .error .malformed) : Reads s .nothing
  | tree {s : String} {n : Node} {text : String → Hint} (h : parseExpression (strip s) = .ok n)
    (within : ∀ t ∈ n.hintTexts, Reads t (text t)) : Reads s (ofNodeWith text n)

/-- What an expression is as a hint. -/
def ReadsNode (n : Node) (h : Hint) : Prop :=
  ∃ text : String → Hint, (∀ t ∈ n.hintTexts, Reads t (text t)) ∧ h = ofNodeWith text n

/-- Only the texts that an expression holds as hints count. -/
theorem ofNodeWith_congr {text text' : String → Hint} {n : Node}
    (h : ∀ t ∈ n.hintTexts, text t = text' t) : ofNodeWith text n = ofNodeWith text' n := by
  revert h
  refine ofNodeWith.induct
    (fun n => (∀ t ∈ n.hintTexts, text t = text' t) → ofNodeWith text n = ofNodeWith text' n)
    (fun ns => (∀ t ∈ Node.hintTextsAll ns, text t = text' t) →
      ofNodesWith text ns = ofNodesWith text' ns)
    ?string ?halved ?or ?tuple ?subscript ?other ?nil ?cons n
  case string =>
    intro place s h
    rw [ofNodeWith, ofNodeWith]
    exact h s (List.mem_singleton.mpr rfl)
  case halved =>
    intro place points _
    rw [ofNodeWith, ofNodeWith]
  case or =>
    intro place left right ihleft ihright h
    rw [ofNodeWith, ofNodeWith, ihleft fun t ht => h t (List.mem_append_left _ ht),
      ihright fun t ht => h t (List.mem_append_right _ ht)]
  case tuple =>
    intro place type place' items use use' ih h
    rw [ofNodeWith, ofNodeWith, ih h]
  case subscript =>
    intro place type argument use hargument ih h
    rw [ofNodeWith.eq_5 _ _ _ _ _ hargument, ofNodeWith.eq_5 _ _ _ _ _ hargument, ih h]
  case other =>
    intro n hstring hhalved hor htuple hsubscript _
    rw [ofNodeWith.eq_6 _ _ hstring hhalved hor htuple hsubscript,
      ofNodeWith.eq_6 _ _ hstring hhalved hor htuple hsubscript]
  case nil => exact fun _ => rfl
  case cons =>
    intro n rest ih ihrest h
    rw [ofNodesWith, ofNodesWith, ih fun t ht => h t (List.mem_append_left _ ht),
      ihrest fun t ht => h t (List.mem_append_right _ ht)]

theorem length_strip_le (s : String) : (strip s).length ≤ s.length := by
  have h : (stripChars s.toList).length ≤ s.toList.length := by
    rw [stripChars, List.length_reverse]
    refine (List.dropWhile_sublist _).length_le.trans ?_
    rw [List.length_reverse]
    exact (List.dropWhile_sublist _).length_le
  rwa [strip, String.length_ofList, ← String.length_toList]

/-- A bound above the length of a text is enough to read it. -/
theorem reads_ofText {depth : Nat} {s : String} (h : s.length < depth) :
    Reads s (ofText depth s) := by
  induction depth generalizing s with
  | zero => exact absurd h (Nat.not_lt_zero _)
  | succ depth ih =>
    rw [ofText]
    split
    · rename_i n hn
      refine .tree hn fun t ht => ih ?_
      have hshorter := length_lt_of_parseExpression hn ht
      have hstrip := length_strip_le s
      omega
    · rename_i hn
      exact .unreadable hn
    · rename_i hn
      exact .malformed hn

/-- A text is one hint only. -/
theorem Reads.unique {s : String} {h h' : Hint} (hr : Reads s h) (hr' : Reads s h') : h = h' := by
  induction hr generalizing h' with
  | unreadable hs =>
    cases hr' with
    | unreadable => rfl
    | malformed hs' => cases hs.symm.trans hs'
    | tree hs' => cases hs.symm.trans hs'
  | malformed hs =>
    cases hr' with
    | unreadable hs' => cases hs.symm.trans hs'
    | malformed => rfl
    | tree hs' => cases hs.symm.trans hs'
  | tree hs within ih =>
    cases hr' with
    | unreadable hs' => cases hs.symm.trans hs'
    | malformed hs' => cases hs.symm.trans hs'
    | tree hs' within' =>
      cases hs.symm.trans hs'
      exact ofNodeWith_congr fun t ht => ih t ht (within' t ht)

/-- **An expression is one hint**, and that is found with the bound. -/
theorem readsNode_iff {n : Node} {h : Hint} : ReadsNode n h ↔ h = ofNode n := by
  have hread : ∀ t ∈ n.hintTexts, Reads t (ofText (t.length + 1) t) :=
    fun t _ => reads_ofText (Nat.lt_succ_self _)
  refine ⟨fun ⟨text, htext, hn⟩ => ?_, fun hn => ⟨_, hread, hn⟩⟩
  rw [hn, ofNode]
  exact ofNodeWith_congr fun t ht => (htext t ht).unique (hread t ht)

end Hint

/-! ### Questions inside each other -/

/-- Where `y` does not run out of depth, `x` does the same. -/
def Continues {α : Type} (x y : Resolve α) : Prop :=
  ∀ s, (y.run s).1 ≠ .error .tooDeep → x.run s = y.run s

theorem congruence_continues : Congruence fun _ x y => Continues x y where
  pure a s _ := rfl
  throw _ _ s _ := rfl
  bind {α β x y f g} hxy hfg s hs := by
    rw [run_bind] at hs ⊢
    rw [run_bind]
    have hx := hxy s
    generalize y.run s = ran at hx hs ⊢
    obtain ⟨e | a, s'⟩ := ran
    · rw [hx fun h => hs (by cases h; rfl)]
    · rw [hx nofun]
      exact hfg a s' hs

namespace Codebase

/-- More depth does not change what does not run out of it. -/
theorem continues_reply (c : Codebase) {depth depth' : Nat} (hle : depth ≤ depth') (asked : Open)
    (Q : Question) :
    Continues ((c.questions depth' asked).reply Q) ((c.questions depth asked).reply Q) := by
  induction depth generalizing depth' asked Q with
  | zero =>
    intro s hs
    cases Q <;> exact absurd rfl hs
  | succ depth ih =>
    obtain ⟨depth', rfl⟩ := Nat.exists_eq_add_of_le' hle
    intro s hs
    rw [← Nat.add_assoc, run_reply]
    rw [run_reply] at hs ⊢
    generalize Q.kept? s = kept? at hs ⊢
    cases kept? with
    | some kept => rfl
    | none =>
      dsimp only at hs ⊢
      split
      · rfl
      · rename_i hopen
        rw [if_neg hopen] at hs
        have hanswer : Continues (c.answer (c.questions (depth' + depth) (asked.add Q)) Q)
            (c.answer (c.questions depth (asked.add Q)) Q) :=
          congruence_continues.answer (fun Q' _ => ih (Nat.le_add_left _ _) (asked.add Q) Q') Q
        rw [hanswer s]
        intro h
        generalize (c.answer (c.questions depth (asked.add Q)) Q).run s = ran at hs h
        obtain ⟨e | a, s'⟩ := ran
        · exact hs h
        · cases h

theorem continues_askWith (c : Codebase) {depth depth' : Nat} (hle : depth ≤ depth')
    (asked : Open) (x : Query) :
    Continues (x.askWith c (c.questions depth' asked)) (x.askWith c (c.questions depth asked)) :=
  congruence_continues.askWith (fun Q _ => c.continues_reply hle asked Q) x

theorem unlimited_askWith {c : Codebase} (hc : c.Outlined) {depth : Nat} {asked : Open}
    (hdepth : c.enough asked ≤ depth) (x : Query) :
    Unlimited (x.askWith c (c.questions depth asked)) :=
  congruence_unlimited.askWith (p := c.questions depth asked)
    (fun Q hQ => unlimited_reply hc depth hQ ((c.room_le asked Q).trans hdepth)) x

end Codebase

/-! ### Outcomes -/

/-- Work that is given a depth ends with an outcome: from some depth on always, and before that
unless it runs out of depth. -/
structure EndsWith {α : Type} (work : Nat → Resolve α) (enough : Nat) (kept : Cache)
    (outcome : Except Fault α × Cache) : Prop where
  not_tooDeep : outcome.1 ≠ .error .tooDeep
  enough : ∀ depth, enough ≤ depth → (work depth).run kept = outcome
  below : ∀ depth, (work depth).run kept = outcome ∨
    ((work depth).run kept).1 = .error .tooDeep

open Codebase in
/-- **What is asked has one outcome**, whatever questions are open and whatever answers are kept. -/
theorem Query.endsWith {c : Codebase} (hc : c.Outlined) (asked : Open) (x : Query)
    (kept : Cache) :
    EndsWith (fun depth => x.askWith c (c.questions depth asked)) (c.enough asked) kept
      ((x.askWith c (c.questions (c.enough asked) asked)).run kept) := by
  have hends := unlimited_askWith hc (Nat.le_refl (c.enough asked)) x kept
  refine ⟨hends, fun depth hle => continues_askWith c hle asked x kept hends, fun depth => ?_⟩
  by_cases hran : ((x.askWith c (c.questions depth asked)).run kept).1 = .error .tooDeep
  · exact .inr hran
  · -- the work does at the larger of the two depths what it does at each of them
    have hmore := continues_askWith c (Nat.le_max_left depth (c.enough asked)) asked x kept hran
    rw [continues_askWith c (Nat.le_max_right depth _) asked x kept hends] at hmore
    exact .inl hmore.symm

/-- **Everything that is asked comes to an end.** In every codebase, from every state of the answers
kept and of the questions that are open, whatever is asked has an outcome that no depth has a part
in, and it is the one that a codebase that is asked gives; and every expression is one hint, however
many texts are inside each other in it. -/
theorem Query.comes_to_an_end (modules : List ModuleDecls)
    (bases : Table ClassId (List ClassId)) (asked : Open) (kept : Cache) (x : Query) :
    let c : Codebase := { Codebase.ofModules modules with bases }
    (∃ outcome, EndsWith (fun depth => x.askWith c (c.questions depth asked)) (c.enough asked) kept
        outcome ∧ (asked = {} → (x.ask c).run kept = outcome)) ∧
      ∀ n h, Hint.ReadsNode n h ↔ h = .ofNode n := by
  intro c
  have hends := x.endsWith (Codebase.outlined_ofModules modules bases) asked kept
  refine ⟨⟨_, hends, ?_⟩, fun n h => Hint.readsNode_iff⟩
  rintro rfl
  rw [Query.ask_eq]
  exact hends.enough c.depth c.enough_le_depth

end Concordance.Binding
