import Concordance.Proofs.Syntax.Declared
import Concordance.Proofs.Syntax.Positions

/-!
# Statements in the order of a text

A statement may hold others: in the blocks of a branch, loop, guard or context, in the cases that it
tells apart, and in the body of a function or class. In the order of a text a statement comes before
those within it, and the handlers of a guard come before what is behind them. Each statement starts
at a token of its own, which is taken before those of the next statement, so that in this order they
stand one behind the other, however deeply they are nested.

A statement is placed where the next token stands before anything is read. If that token were one
of the layout it would not count, so it is shown first that no expression begins with one.

## Main definitions

* `allStatements`: statements with those within them at every depth, in the order of a text
* `Reader.RefusesLayout`: readers that do not begin with a token of the layout
* `Places`: statements that are placed at tokens taken between two cursors
* `Statements.Placing`: readers of blocks that place their statements

## Main results

* `Statements.placing_nested`: blocks of all nestings are placed
* `pairwise_before_allStatements`: the statements of a module stand in order
-/

namespace Concordance

open Syntax

/-! ### The order of a text -/

mutual

/-- The statements within a statement, at every depth, in the order of a text. -/
def statementsWithin : Node → List Node
  | .branch _ _ body orElse => allStatements body ++ allStatements orElse
  | .loop _ _ _ _ body orElse => allStatements body ++ allStatements orElse
  | .plain _ .whileLoop (_ :: blocks) => allStatements blocks
  | .guarded _ _ body handlers orElse final =>
    allStatements body ++ armStatements handlers ++ allStatements orElse ++ allStatements final
  | .within _ _ _ body => allStatements body
  | .plain _ .matching (_ :: cases) => armStatements cases
  | .functionDef _ _ _ _ body _ _ => allStatements body
  | .classDef _ _ _ _ body _ => allStatements body
  | .handler _ _ _ body => allStatements body
  | .matchCase _ _ body => allStatements body
  | _ => []

/-- Statements in the order of a text, each one followed by those within it. -/
def allStatements : List Node → List Node
  | [] => []
  | n :: rest => n :: (statementsWithin n ++ allStatements rest)

/-- The statements within handlers or cases in the order of a text. -/
def armStatements : List Node → List Node
  | [] => []
  | a :: rest => statementsWithin a ++ armStatements rest

end

theorem allStatements_append (xs ys : List Node) :
    allStatements (xs ++ ys) = allStatements xs ++ allStatements ys := by
  induction xs with
  | nil => rfl
  | cons n rest ih => simp [allStatements, ih]

/-- A handler with something in it. -/
def Syntax.Node.IsHandler : Node → Prop
  | .handler _ _ _ body => body ≠ []
  | _ => False

/-- The handlers of a guard are that, and there is something in them. -/
def Syntax.Node.Handled : Node → Prop
  | .guarded _ _ _ handlers _ _ => ∀ h ∈ handlers, h.IsHandler
  | _ => True

/-- Whether a node holds statements. -/
def Syntax.Node.holdsStatements : Node → Bool
  | .branch .. | .loop .. | .guarded .. | .within .. => true
  | .functionDef .. | .classDef .. | .handler .. | .matchCase .. => true
  | .plain _ .whileLoop _ | .plain _ .matching _ => true
  | _ => false

theorem statementsWithin_eq_nil {n : Node} (h : n.holdsStatements = false) :
    statementsWithin n = [] := by
  cases n with
  | plain p form parts => cases form <;> first | rfl | cases h
  | _ => first | rfl | cases h

theorem handled_of_not_holds {n : Node} (h : n.holdsStatements = false) :
    n.Handled := by
  cases n with
  | guarded => cases h
  | _ => trivial

namespace Syntax

open Std.Do

set_option mvcgen.warning false

/-! ### Runs of readers -/

namespace Reader

variable {α β : Type} {c c' c'' : Cursor}

theorem run_bind_eq_some {x : Reader α} {f : α → Reader β} {b : β} :
    (x >>= f).run c = some (b, c'') ↔
      ∃ a c', x.run c = some (a, c') ∧ (f a).run c' = some (b, c'') := by
  rw [StateT.run_bind, Option.bind_eq_bind, Option.bind_eq_some_iff, Prod.exists]

theorem run_pure_eq_some {a b : α} : (pure a : Reader α).run c = some (b, c') ↔ b = a ∧ c' = c := by
  rw [StateT.run_pure, Option.pure_def, Option.some_inj, Prod.mk.injEq, eq_comm, @eq_comm _ c]

theorem run_failure_ne_some {a : α} : (failure : Reader α).run c ≠ some (a, c') := nofun

theorem run_peek_eq_some {t : Token} :
    peek.run c = some (t, c') ↔ c' = c ∧ ∃ rest, c.ahead = t :: rest := by
  obtain ⟨ahead, line⟩ := c
  cases ahead with
  | nil => exact ⟨nofun, fun ⟨_, _, h⟩ => nomatch h⟩
  | cons t' rest =>
    have hrun : peek.run ⟨t' :: rest, line⟩ = some (t', ⟨t' :: rest, line⟩) := rfl
    rw [hrun]
    constructor
    · intro h
      cases h
      exact ⟨rfl, rest, rfl⟩
    · rintro ⟨rfl, _, h⟩
      cases h
      rfl

theorem ahead_of_advance {t : Token} (h : advance.run c = some (t, c')) :
    c.ahead = t :: c'.ahead := by
  obtain ⟨ahead, line⟩ := c
  cases ahead with
  | nil => cases h
  | cons t' rest =>
    cases h
    rfl

theorem run_isNext_eq_some {l : Lexeme} {b : Bool} :
    (isNext l).run c = some (b, c') ↔
      c' = c ∧ b = (c.ahead.head?.map Token.lexeme == some l) := by
  obtain ⟨ahead, line⟩ := c
  cases ahead with
  | nil =>
    have hrun : (isNext l).run ⟨[], line⟩ = some (false, ⟨[], line⟩) := rfl
    simp [hrun, eq_comm, and_comm]
  | cons t rest =>
    have hrun : (isNext l).run ⟨t :: rest, line⟩ = some (t.lexeme == l, ⟨t :: rest, line⟩) := rfl
    simp [hrun, eq_comm, and_comm]

/-- A token is taken if it is the next one, otherwise nothing is. -/
theorem ahead_of_accept {l : Lexeme} {b : Bool} (h : (accept l).run c = some (b, c')) :
    (b = true ∧ ∃ t, t.lexeme = l ∧ c.ahead = t :: c'.ahead) ∨ (b = false ∧ c' = c) := by
  obtain ⟨next, c₁, hnext, h⟩ := run_bind_eq_some.mp h
  obtain ⟨rfl, rfl⟩ := run_isNext_eq_some.mp hnext
  split at h
  · rename_i hl
    obtain ⟨t, c₂, hadvance, h⟩ := run_bind_eq_some.mp h
    obtain ⟨rfl, rfl⟩ := run_pure_eq_some.mp h
    have hahead := ahead_of_advance hadvance
    rw [hahead] at hl
    exact .inl ⟨rfl, t, by simpa using hl, hahead⟩
  · obtain ⟨rfl, rfl⟩ := run_pure_eq_some.mp h
    exact .inr ⟨rfl, rfl⟩

theorem ahead_of_expect {l : Lexeme} {u : Unit} (h : (expect l).run c = some (u, c')) :
    ∃ t, t.lexeme = l ∧ c.ahead = t :: c'.ahead := by
  obtain ⟨accepted, c₁, haccept, h⟩ := run_bind_eq_some.mp h
  rcases ahead_of_accept haccept with ⟨rfl, htaken⟩ | ⟨rfl, -⟩
  · obtain ⟨-, rfl⟩ := run_pure_eq_some.mp h
    exact htaken
  · exact absurd h run_failure_ne_some

/-! ### What is ahead afterwards -/

/-- A reader that answers takes tokens from the front. -/
def Shortens (r : Reader α) : Prop := ∀ ⦃c a c'⦄, r.run c = some (a, c') → c'.ahead <:+ c.ahead

/-- The triples of a reader say that it takes tokens from the front. -/
theorem shortens {P : List Token → α → Prop} {r : Reader α}
    (hr : ∀ T, ⦃within T⦄ r ⦃yields T (P T)⦄) : Shortens r := by
  intro c a c' h
  have hwp : (wp⟦r c⟧ _).down := hr c.ahead c List.suffix_rfl
  rw [show r c = some (a, c') from h] at hwp
  exact hwp.1

/-! ### Answers -/

/-- Every answer of a reader has a property. -/
def Answers (r : Reader α) (P : α → Prop) : Prop := ∀ ⦃c a c'⦄, r.run c = some (a, c') → P a

theorem answers_pure {P : α → Prop} {a : α} (h : P a) : Answers (pure a) P := by
  intro c b c' hb
  obtain ⟨rfl, -⟩ := run_pure_eq_some.mp hb
  exact h

theorem answers_bind {P : β → Prop} {x : Reader α} {f : α → Reader β}
    (h : ∀ a, Answers (f a) P) : Answers (x >>= f) P := by
  intro c b c'' hb
  obtain ⟨a, c', -, hb⟩ := run_bind_eq_some.mp hb
  exact h a hb

theorem answers_placeFrom_bind {P : β → Prop} {t : Token} {f : Place → Reader β}
    (h : ∀ last, Answers (f ⟨t.line, t.column, last⟩) P) : Answers (placeFrom t >>= f) P := by
  intro c b c'' hb
  obtain ⟨p, c', hp, hb⟩ := run_bind_eq_some.mp hb
  cases hp
  exact h _ hb

/-! ### Readers that refuse the layout -/

/-- A reader that answers has not begun with a token of the layout. -/
def RefusesLayout (r : Reader α) : Prop :=
  ∀ ⦃c a c' t rest⦄, r.run c = some (a, c') → c.ahead = t :: rest → t.lexeme.isLayout = false

theorem refuses_failure : RefusesLayout (failure : Reader α) :=
  fun _ _ _ _ _ h => absurd h run_failure_ne_some

theorem refuses_bind {x : Reader α} (h : RefusesLayout x) (f : α → Reader β) :
    RefusesLayout (x >>= f) := by
  intro c b c'' t rest hb hc
  obtain ⟨a, c', ha, -⟩ := run_bind_eq_some.mp hb
  exact h ha hc

theorem refuses_peek_bind {f : Token → Reader β}
    (h : ∀ t : Token, t.lexeme.isLayout = true → RefusesLayout (f t)) :
    RefusesLayout (peek >>= f) := by
  intro c b c'' t rest hb hc
  obtain ⟨start, c', hpeek, hb⟩ := run_bind_eq_some.mp hb
  obtain ⟨rfl, rest', hc'⟩ := run_peek_eq_some.mp hpeek
  cases hc.symm.trans hc'
  by_contra ht
  exact ht (h t (by simpa using ht) hb hc)

theorem refuses_isNext_bind {l : Lexeme} (hl : l.isLayout = false) {f : Bool → Reader β}
    (h : RefusesLayout (f false)) : RefusesLayout (isNext l >>= f) := by
  intro c b c'' t rest hb hc
  obtain ⟨next, c', hnext, hb⟩ := run_bind_eq_some.mp hb
  obtain ⟨rfl, rfl⟩ := run_isNext_eq_some.mp hnext
  by_cases ht : t.lexeme = l
  · exact ht ▸ hl
  · rw [show (c'.ahead.head?.map Token.lexeme == some l) = false by simp [hc, ht]] at hb
    exact h hb hc

theorem refuses_accept_bind {l : Lexeme} (hl : l.isLayout = false) {f : Bool → Reader β}
    (h : RefusesLayout (f false)) : RefusesLayout (accept l >>= f) := by
  intro c b c'' t rest hb hc
  obtain ⟨accepted, c', haccept, hrest⟩ := run_bind_eq_some.mp hb
  rcases ahead_of_accept haccept with ⟨rfl, t', rfl, hc'⟩ | ⟨rfl, rfl⟩
  · cases hc.symm.trans hc'
    exact hl
  · exact h hrest hc

end Reader

namespace Expressions

open Reader

variable (e : Expressions)

theorem refuses_atom : RefusesLayout e.atom := by
  refine refuses_peek_bind fun t ht => ?_
  cases hl : t.lexeme <;> first
    | exact refuses_failure
    | (rw [hl] at ht; cases ht)

theorem refuses_primary : RefusesLayout e.primary :=
  refuses_peek_bind fun _ _ => refuses_bind e.refuses_atom _

theorem refuses_awaited : RefusesLayout e.awaited :=
  refuses_peek_bind fun _ _ => refuses_accept_bind rfl e.refuses_primary

theorem refuses_power : RefusesLayout e.power :=
  refuses_peek_bind fun _ _ => refuses_bind e.refuses_awaited _

theorem refuses_signed : RefusesLayout e.signed := by
  refine refuses_peek_bind fun t ht => ?_
  have hsign : [Lexeme.mark "-", .mark "+", .mark "~"].contains t.lexeme = false := by
    cases hl : t.lexeme <;> first
      | rfl
      | (rw [hl] at ht; cases ht)
  rw [hsign]
  exact e.refuses_power

theorem refuses_operands {operand : Reader Node} (h : RefusesLayout operand)
    (levels : List (List (String × Operator))) : RefusesLayout (e.operands operand levels) := by
  induction levels with
  | nil => exact h
  | cons ops tighter ih => exact refuses_peek_bind fun _ _ => refuses_bind ih _

theorem refuses_comparison : RefusesLayout e.comparison :=
  refuses_peek_bind fun _ _ => refuses_bind (e.refuses_operands e.refuses_signed _) _

theorem refuses_negation (fuel : Nat) : RefusesLayout (e.negation fuel) := by
  cases fuel with
  | zero => exact refuses_failure
  | succ fuel => exact refuses_peek_bind fun _ _ => refuses_accept_bind rfl e.refuses_comparison

theorem refuses_joined {operand : Reader Node} (h : RefusesLayout operand) (k : String) :
    RefusesLayout (e.joined k operand) :=
  refuses_peek_bind fun _ _ => refuses_bind h _

theorem refuses_conditional : RefusesLayout e.conditional := by
  have hdisjunction : RefusesLayout e.disjunctionExpression :=
    e.refuses_joined (e.refuses_joined (e.refuses_negation _) _) _
  exact refuses_isNext_bind rfl (refuses_peek_bind fun _ _ => refuses_bind hdisjunction _)

/-- No expression begins with a token of the layout. -/
theorem refuses_expression (n : Nat) : RefusesLayout (nested n).expression := by
  cases n with
  | zero => exact refuses_failure
  | succ n => exact (nested n).refuses_conditional

theorem refuses_assigned (n : Nat) : RefusesLayout (nested n).assigned := by
  have hitem : RefusesLayout (nested n).starExpression :=
    refuses_isNext_bind rfl (refuses_expression n)
  exact refuses_isNext_bind rfl (refuses_peek_bind fun _ _ => refuses_bind hitem _)

end Expressions

/-! ### Statements that are placed -/

theorem placesOf_sublist {T T' : List Token} (h : T <:+ T') :
    (placesOf T).Sublist (placesOf T') :=
  (h.sublist.filter _).map _

/-- Statements are placed, in this order, at tokens that are taken between two cursors. And their
handlers are that. -/
structure Places (ns : List Node) (c c' : Cursor) : Prop where
  taken : (ns.map Node.position ++ placesOf c'.ahead).Sublist (placesOf c.ahead)
  handled : ∀ n ∈ ns, n.Handled

/-- A statement starts at a token and places those within it behind it. -/
structure Holds (start : Token) (n : Node) (c c' : Cursor) : Prop where
  position : n.position = start.position
  handled : n.Handled
  within : Places (statementsWithin n) c c'

/-- A statement starts at a token and holds no others. -/
structure FlatAt (start : Token) (n : Node) : Prop where
  position : n.position = start.position
  flat : n.holdsStatements = false

section

variable {ns ns' : List Node} {n : Node} {start : Token} {c c' c'' : Cursor}

theorem Places.nil (h : c'.ahead <:+ c.ahead) : Places [] c c' :=
  ⟨placesOf_sublist h, List.forall_mem_nil _⟩

theorem Places.append (h : Places ns c c') (h' : Places ns' c' c'') : Places (ns ++ ns') c c'' := by
  refine ⟨?_, List.forall_mem_append.mpr ⟨h.handled, h'.handled⟩⟩
  rw [List.map_append, List.append_assoc]
  exact (h'.taken.append_left _).trans h.taken

/-- Tokens may be taken before the statements. -/
theorem Places.after (h' : Places ns c' c'') (h : c'.ahead <:+ c.ahead) : Places ns c c'' :=
  (Places.nil h).append h'

/-- Tokens may be taken behind the statements. -/
theorem Places.before (h : Places ns c c') (h' : c''.ahead <:+ c'.ahead) : Places ns c c'' := by
  have happend := h.append (Places.nil h')
  rwa [List.append_nil] at happend

theorem Holds.of_flatAt (h : FlatAt start n) (hc : c'.ahead <:+ c.ahead) :
    Holds start n c c' where
  position := h.position
  handled := handled_of_not_holds h.flat
  within := by
    rw [statementsWithin_eq_nil h.flat]
    exact Places.nil hc

theorem Holds.after (h : Holds start n c' c'') (hc : c'.ahead <:+ c.ahead) : Holds start n c c'' :=
  ⟨h.position, h.handled, h.within.after hc⟩

/-- The token that a statement starts at is taken before those within it. -/
theorem Holds.places (h : Holds start n c' c'') (hstart : start.lexeme.isLayout = false)
    (hc : c.ahead = start :: c'.ahead) : Places (allStatements [n]) c c'' := by
  have hn : Places [n] c c' := by
    refine ⟨?_, List.forall_mem_singleton.mpr h.handled⟩
    rw [List.map_singleton, h.position, hc, placesOf_cons_of_not_isLayout hstart]
    exact List.Sublist.refl _
  rw [allStatements, allStatements, List.append_nil]
  exact hn.append h.within

end

namespace Reader

/-- One of two ways to read is taken. -/
theorem run_of_orElse {α : Type} {r r' : Reader α} {c c' : Cursor} {a : α}
    (h : (r <|> r').run c = some (a, c')) : r.run c = some (a, c') ∨ r'.run c = some (a, c') := by
  cases hr : r.run c with
  | none =>
    rw [show (r <|> r').run c = (r.run c <|> r'.run c) from rfl, hr] at h
    exact .inr h
  | some x =>
    rw [show (r <|> r').run c = (r.run c <|> r'.run c) from rfl, hr] at h
    exact .inl h

end Reader

namespace Statements

open Reader Expressions

/-- The blocks of the next nesting place their statements, of which there is at least one. -/
class Placing (s : Statements) : Prop extends Making s where
  refuses_assigned : RefusesLayout s.expressions.assigned
  places_block : ∀ ⦃c ns c'⦄, s.block.run c = some (ns, c') →
    Places (allStatements ns) c c' ∧ ns ≠ []

variable {s : Statements} {c c' : Cursor} {n : Node} {ns : List Node}

/-! #### Statements that hold no others -/

theorem flat_of_place {f : Place → Node} {start : Token} (hposition : ∀ p, (f p).place = p)
    (hflat : ∀ p, (f p).holdsStatements = false) :
    Answers (do pure (f (← placeFrom start))) (FlatAt start) :=
  answers_placeFrom_bind fun _ => answers_pure ⟨by rw [Node.position, hposition]; rfl, hflat _⟩

theorem flat_importFromStatement (start : Token) :
    Answers (s.importFromStatement start) (FlatAt start) := by
  refine answers_bind fun _ => answers_bind fun _ => answers_bind fun _ => ?_
  dsimp only
  split
  · split
    · exact answers_bind fun _ => answers_bind fun _ => answers_bind fun _ =>
        flat_of_place (fun _ => rfl) fun _ => rfl
    · exact answers_bind fun _ => answers_bind fun _ => answers_bind fun _ =>
        flat_of_place (fun _ => rfl) fun _ => rfl
  · exact answers_bind fun _ => answers_bind fun _ => answers_bind fun _ =>
      flat_of_place (fun _ => rfl) fun _ => rfl

/-- A reader looks at the next token before it reads on. -/
theorem answers_of_peek {f : Token → Reader Node} {P : Token → Node → Prop}
    (hf : ∀ t, Answers (f t) (P t)) {t : Token} {rest : List Token}
    (h : (peek >>= f).run c = some (n, c')) (hc : c.ahead = t :: rest) : P t n := by
  obtain ⟨start, c₁, hpeek, h⟩ := run_bind_eq_some.mp h
  obtain ⟨rfl, rest', hc'⟩ := run_peek_eq_some.mp hpeek
  cases hc.symm.trans hc'
  exact hf t h

theorem flat_expressionStatement {t : Token} {rest : List Token}
    (h : s.expressionStatement.run c = some (n, c')) (hc : c.ahead = t :: rest) : FlatAt t n := by
  refine answers_of_peek (fun start => ?_) h hc
  refine answers_bind fun _ => answers_bind fun _ => ?_
  split
  · exact answers_bind fun _ => answers_bind fun _ => answers_bind fun _ =>
      flat_of_place (fun _ => rfl) fun _ => rfl
  · refine answers_bind fun _ => ?_
    split
    · exact answers_bind fun _ => answers_bind fun _ => flat_of_place (fun _ => rfl) fun _ => rfl
    · refine answers_bind fun ⟨targets, value⟩ => ?_
      dsimp only
      split
      · exact flat_of_place (fun _ => rfl) fun _ => rfl
      · exact flat_of_place (fun _ => rfl) fun _ => rfl

/-- A statement without a block starts at the next token and holds no others. -/
theorem flat_simpleStatement {t : Token} {rest : List Token}
    (h : s.simpleStatement.run c = some (n, c')) (hc : c.ahead = t :: rest) : FlatAt t n := by
  obtain ⟨start, c₁, hpeek, h⟩ := run_bind_eq_some.mp h
  obtain ⟨rfl, rest', hc'⟩ := run_peek_eq_some.mp hpeek
  cases hc.symm.trans hc'
  dsimp only at h
  split at h
  case h_3 => exact flat_importFromStatement t h
  case h_12 => exact flat_expressionStatement h hc
  all_goals refine (?_ : Answers _ (FlatAt t)) h
  case h_1 =>
    refine answers_bind fun _ => answers_bind fun _ => ?_
    split
    · exact flat_of_place (fun _ => rfl) fun _ => rfl
    · exact answers_bind fun _ => flat_of_place (fun _ => rfl) fun _ => rfl
  case h_4 =>
    refine answers_bind fun _ => answers_bind fun _ => ?_
    split
    · exact flat_of_place (fun _ => rfl) fun _ => rfl
    · exact answers_bind fun _ => answers_bind fun _ =>
        flat_of_place (fun _ => rfl) fun _ => rfl
  case h_9 =>
    exact answers_bind fun _ => answers_bind fun _ => answers_bind fun _ =>
      flat_of_place (fun _ => rfl) fun _ => rfl
  any_goals
    exact answers_bind fun _ => answers_bind fun _ => flat_of_place (fun _ => rfl) fun _ => rfl
  all_goals exact answers_bind fun _ => flat_of_place (fun _ => rfl) fun _ => rfl

/-! #### Statements of a line -/

variable [Placing s]

theorem refuses_simpleStatement : RefusesLayout s.simpleStatement := by
  have hexpression : RefusesLayout s.expressionStatement :=
    refuses_peek_bind fun _ _ => refuses_bind Placing.refuses_assigned _
  refine refuses_peek_bind fun t ht => ?_
  cases hl : t.lexeme <;> first
    | exact hexpression
    | (rw [hl] at ht; cases ht)

/-- A simple statement and the token behind it, with which the token at its start is taken at the
latest. -/
theorem places_simpleStatement {c₁ : Cursor} {t : Token} (h : s.simpleStatement.run c = some (n, c₁))
    (hc : c₁.ahead = t :: c'.ahead) : Places (allStatements [n]) c c' := by
  have hsuffix : c₁.ahead <:+ c.ahead := shortens (fun _ => simpleStatement_spec) h
  rw [hc] at hsuffix
  cases hahead : c.ahead with
  | nil =>
    rw [hahead] at hsuffix
    cases List.suffix_nil.mp hsuffix
  | cons start rest =>
    rw [hahead] at hsuffix
    have hrest : c'.ahead <:+ rest := by
      rcases List.suffix_cons_iff.mp hsuffix with heq | hsuffix
      · cases heq
        exact List.suffix_rfl
      · exact (List.suffix_cons _ _).trans hsuffix
    have hholds : Holds start n ⟨rest, c.lastLine⟩ c' :=
      .of_flatAt (flat_simpleStatement h hahead) hrest
    exact hholds.places (refuses_simpleStatement h hahead) hahead

theorem places_simpleStatements {fuel : Nat} (h : (s.simpleStatements fuel).run c = some (ns, c')) :
    Places (allStatements ns) c c' ∧ ns ≠ [] := by
  induction fuel generalizing c ns with
  | zero => exact absurd h run_failure_ne_some
  | succ fuel ih =>
    obtain ⟨n, c₁, hn, h₁⟩ := run_bind_eq_some.mp h
    obtain ⟨more, c₂, hmore, h₂⟩ := run_bind_eq_some.mp h₁
    rcases ahead_of_accept hmore with ⟨rfl, t, -, hc₁⟩ | ⟨rfl, rfl⟩
    · have hplaces := places_simpleStatement hn hc₁
      obtain ⟨last, c₃, hlast, h₃⟩ := run_bind_eq_some.mp h₂
      rcases ahead_of_accept hlast with ⟨rfl, t', -, hc₂⟩ | ⟨rfl, rfl⟩
      · obtain ⟨rfl, rfl⟩ := run_pure_eq_some.mp h₃
        exact ⟨hplaces.before (hc₂ ▸ List.suffix_cons _ _), List.cons_ne_nil _ _⟩
      · obtain ⟨rest, c₄, hrest, h₄⟩ := run_bind_eq_some.mp h₃
        obtain ⟨rfl, rfl⟩ := run_pure_eq_some.mp h₄
        refine ⟨?_, List.cons_ne_nil _ _⟩
        have happend := hplaces.append (ih hrest).1
        rwa [← allStatements_append] at happend
    · obtain ⟨u, c₃, hend, h₃⟩ := run_bind_eq_some.mp h₂
      obtain ⟨rfl, rfl⟩ := run_pure_eq_some.mp h₃
      obtain ⟨t, -, hc₁⟩ := ahead_of_expect hend
      exact ⟨places_simpleStatement hn hc₁, List.cons_ne_nil _ _⟩

/-! #### Blocks behind their words -/

theorem places_suite (h : s.suite.run c = some (ns, c')) :
    Places (allStatements ns) c c' ∧ ns ≠ [] := by
  obtain ⟨u, c₁, hcolon, h⟩ := run_bind_eq_some.mp h
  obtain ⟨hplaces, hne⟩ := Placing.places_block h
  exact ⟨hplaces.after (shortens (fun _ => mark_spec ":") hcolon), hne⟩

theorem places_suiteBehind {k : String} (h : (s.suiteBehind k).run c = some (ns, c')) :
    Places (allStatements ns) c c' := by
  obtain ⟨next, c₁, hnext, h⟩ := run_bind_eq_some.mp h
  have hsuffix := shortens (fun _ => acceptKeyword_spec k) hnext
  split at h
  · exact (places_suite h).1.after hsuffix
  · obtain ⟨rfl, rfl⟩ := run_pure_eq_some.mp h
    exact Places.nil hsuffix

/-! #### Statements that hold others -/

/-- A statement that ends with its place starts at the token that is given. -/
theorem holds_of_place {f : Place → Node} {start : Token} {c₁ : Cursor}
    (h : (do pure (f (← placeFrom start)) : Reader Node).run c₁ = some (n, c'))
    (hposition : ∀ p, (f p).place = p) (hhandled : ∀ p, (f p).Handled)
    (hwithin : ∀ p, Places (statementsWithin (f p)) c c₁) : Holds start n c c' := by
  cases h
  exact ⟨by rw [Node.position, hposition]; rfl, hhandled _, hwithin _⟩

theorem holds_branchFrom {fuel : Nat} {start : Token}
    (h : (s.branchFrom start fuel).run c = some (n, c')) : Holds start n c c' := by
  induction fuel generalizing start c c' n with
  | zero => exact absurd h run_failure_ne_some
  | succ fuel ih =>
    obtain ⟨test, c₁, htest, h₁⟩ := run_bind_eq_some.mp h
    obtain ⟨body, c₂, hbody, h₂⟩ := run_bind_eq_some.mp h₁
    obtain ⟨next, c₃, hnext, h₃⟩ := run_bind_eq_some.mp h₂
    obtain ⟨again, c₄, hagain, h₄⟩ := run_bind_eq_some.mp h₃
    obtain ⟨rfl, rest, hc₃⟩ := run_peek_eq_some.mp hnext
    have hfirst := (places_suite hbody).1.after (shortens (fun _ => namedExpression_spec) htest)
    split at h₄
    · rename_i hword
      obtain ⟨other, c₅, hother, h₅⟩ := run_bind_eq_some.mp h₄
      rcases ahead_of_accept hagain with ⟨-, t, ht, hc₄⟩ | ⟨hfalse, -⟩
      · cases hc₃.symm.trans hc₄
        have hlayout : next.lexeme.isLayout = false := by rw [ht]; rfl
        have hbranch := (ih hother).places hlayout hc₄
        exact holds_of_place h₅ (fun _ => rfl) (fun _ => trivial) fun _ => hfirst.append hbranch
      · cases hfalse.symm.trans hword
    · obtain ⟨orElse, c₅, horElse, h₅⟩ := run_bind_eq_some.mp h₄
      have hrest := (places_suiteBehind horElse).after
        (shortens (fun _ => acceptKeyword_spec "elif") hagain)
      exact holds_of_place h₅ (fun _ => rfl) (fun _ => trivial) fun _ => hfirst.append hrest

theorem holds_withStatement {start : Token} {async : Bool}
    (h : (s.withStatement start async).run c = some (n, c')) : Holds start n c c' := by
  obtain ⟨items, c₁, hitems, h⟩ := run_bind_eq_some.mp h
  obtain ⟨body, c₂, hbody, h⟩ := run_bind_eq_some.mp h
  have hplaces := (places_suite hbody).1.after (shortens (fun _ => withItems_spec) hitems)
  exact holds_of_place h (fun _ => rfl) (fun _ => trivial) fun _ => hplaces

theorem holds_whileStatement {start : Token}
    (h : (s.whileStatement start).run c = some (n, c')) : Holds start n c c' := by
  obtain ⟨test, c₁, htest, h₁⟩ := run_bind_eq_some.mp h
  obtain ⟨body, c₂, hbody, h₂⟩ := run_bind_eq_some.mp h₁
  obtain ⟨orElse, c₃, horElse, h₃⟩ := run_bind_eq_some.mp h₂
  have hfirst := (places_suite hbody).1.after (shortens (fun _ => namedExpression_spec) htest)
  refine holds_of_place h₃ (fun _ => rfl) (fun _ => trivial) fun _ => ?_
  rw [statementsWithin, allStatements_append]
  exact hfirst.append (places_suiteBehind horElse)

theorem holds_forStatement {start : Token} {async : Bool}
    (h : (s.forStatement start async).run c = some (n, c')) : Holds start n c c' := by
  obtain ⟨target, c₁, htarget, h₁⟩ := run_bind_eq_some.mp h
  obtain ⟨u, c₂, hword, h₂⟩ := run_bind_eq_some.mp h₁
  obtain ⟨iter, c₃, hiter, h₃⟩ := run_bind_eq_some.mp h₂
  obtain ⟨body, c₄, hbody, h₄⟩ := run_bind_eq_some.mp h₃
  obtain ⟨orElse, c₅, horElse, h₅⟩ := run_bind_eq_some.mp h₄
  have hc₁ := shortens (fun _ => starTargets_spec) htarget
  have hc₂ := (shortens (fun _ => keyword_spec "in") hword).trans hc₁
  have hc₃ := (shortens (fun _ => starExpressions_spec) hiter).trans hc₂
  have hfirst := (places_suite hbody).1.after hc₃
  exact holds_of_place h₅ (fun _ => rfl) (fun _ => trivial) fun _ =>
    hfirst.append (places_suiteBehind horElse)

theorem places_named {start : Token} {type : Option Node}
    (h : (handler.named s start type).run c = some (n, c')) :
    Places (statementsWithin n) c c' ∧ n.IsHandler := by
  have hblock {name : Option String} {c₁ : Cursor}
      (h : (do let body ← s.suite
               pure (.handler (← placeFrom start) type name body) : Reader Node).run c₁ =
        some (n, c')) : Places (statementsWithin n) c₁ c' ∧ n.IsHandler := by
    obtain ⟨body, c₂, hbody, h₁⟩ := run_bind_eq_some.mp h
    obtain ⟨hplaces, hne⟩ := places_suite hbody
    cases h₁
    exact ⟨hplaces, hne⟩
  unfold handler.named at h
  dsimp only at h
  split at h
  · obtain ⟨name, c₁, hname, h₁⟩ := run_bind_eq_some.mp h
    obtain ⟨hplaces, hhandler⟩ := hblock h₁
    have hsuffix := shortens (behind?_stays (stays fun _ => word_spec) (.keyword "as")) hname
    exact ⟨hplaces.after hsuffix, hhandler⟩
  · exact hblock h

/-- The statements of a handler are placed. -/
theorem places_handler {group : Bool} (h : (s.handler group).run c = some (n, c')) :
    Places (statementsWithin n) c c' ∧ n.IsHandler := by
  obtain ⟨start, c₁, hstart, h₁⟩ := run_bind_eq_some.mp h
  obtain ⟨rfl, -⟩ := run_peek_eq_some.mp hstart
  obtain ⟨u, c₂, hword, h₂⟩ := run_bind_eq_some.mp h₁
  have hsuffix := shortens (fun _ => keyword_spec "except") hword
  have htyped {c₃ : Cursor} (hc₃ : c₃.ahead <:+ c₁.ahead)
      (h : (do let type ← s.expressions.expression
               handler.named s start (some type) : Reader Node).run c₃ = some (n, c')) :
      Places (statementsWithin n) c₁ c' ∧ n.IsHandler := by
    obtain ⟨type, c₄, htype, h₁⟩ := run_bind_eq_some.mp h
    obtain ⟨hplaces, hhandler⟩ := places_named h₁
    have htype := shortens (Expressions.Making.expression (e := s.expressions)) htype
    exact ⟨hplaces.after (htype.trans hc₃), hhandler⟩
  split at h₂
  · obtain ⟨u, c₃, hstar, h₃⟩ := run_bind_eq_some.mp h₂
    exact htyped ((shortens (fun _ => mark_spec "*") hstar).trans hsuffix) h₃
  · obtain ⟨colon, c₃, hcolon, h₃⟩ := run_bind_eq_some.mp h₂
    have hc₃ := (shortens (fun _ => atMark_spec ":") hcolon).trans hsuffix
    split at h₃
    · obtain ⟨hplaces, hhandler⟩ := places_named h₃
      exact ⟨hplaces.after hc₃, hhandler⟩
    · exact htyped hc₃ h₃

/-- Handlers or cases, one behind the other. -/
theorem places_arms {more : Lexeme} {arm : Reader Node} {P : Node → Prop}
    (harm : ∀ {c c' n}, arm.run c = some (n, c') → Places (statementsWithin n) c c' ∧ P n)
    {fuel : Nat} (h : (while? fuel (isNext more) arm).run c = some (ns, c')) :
    Places (armStatements ns) c c' ∧ ∀ n ∈ ns, P n := by
  induction fuel generalizing c ns with
  | zero =>
    obtain ⟨rfl, rfl⟩ := run_pure_eq_some.mp h
    exact ⟨Places.nil List.suffix_rfl, List.forall_mem_nil _⟩
  | succ fuel ih =>
    obtain ⟨next, c₁, hnext, h₁⟩ := run_bind_eq_some.mp h
    obtain ⟨rfl, -⟩ := run_isNext_eq_some.mp hnext
    split at h₁
    · obtain ⟨n, c₂, hn, h₂⟩ := run_bind_eq_some.mp h₁
      obtain ⟨rest, c₃, hrest, h₃⟩ := run_bind_eq_some.mp h₂
      obtain ⟨rfl, rfl⟩ := run_pure_eq_some.mp h₃
      obtain ⟨hplaces, hfirst⟩ := harm hn
      obtain ⟨hmore, hothers⟩ := ih hrest
      exact ⟨hplaces.append hmore, List.forall_mem_cons.mpr ⟨hfirst, hothers⟩⟩
    · obtain ⟨rfl, rfl⟩ := run_pure_eq_some.mp h₁
      exact ⟨Places.nil List.suffix_rfl, List.forall_mem_nil _⟩

theorem holds_tryStatement {start : Token}
    (h : (s.tryStatement start).run c = some (n, c')) : Holds start n c c' := by
  obtain ⟨body, c₁, hbody, h₁⟩ := run_bind_eq_some.mp h
  have hfirst := (places_suite hbody).1
  obtain ⟨next, c₂, hnext, h₂⟩ := run_bind_eq_some.mp h₁
  obtain ⟨rfl, -⟩ := run_isNext_eq_some.mp hnext
  have hrest {group : Bool} {c₃ : Cursor} (hc₃ : c₃.ahead <:+ c₂.ahead)
      (h : (do
        let handlers ← while? s.fuel (atKeyword "except") (s.handler group)
        if handlers.isEmpty then
          keyword "finally"
          let final ← s.suite
          pure (.guarded (← placeFrom start) false body [] [] final)
        else
          let orElse ← s.suiteBehind "else"
          let final ← s.suiteBehind "finally"
          pure (.guarded (← placeFrom start) group body handlers orElse final) :
            Reader Node).run c₃ = some (n, c')) : Holds start n c c' := by
    obtain ⟨handlers, c₄, hhandlers, h₁⟩ := run_bind_eq_some.mp h
    obtain ⟨hplaces, hhandler⟩ := places_arms places_handler hhandlers
    have hbegun := hfirst.append (hplaces.after hc₃)
    split at h₁
    · rename_i hempty
      obtain rfl := List.isEmpty_iff.mp hempty
      obtain ⟨u, c₅, hword, h₂⟩ := run_bind_eq_some.mp h₁
      obtain ⟨final, c₆, hfinal, h₃⟩ := run_bind_eq_some.mp h₂
      have hlast := (places_suite hfinal).1.after
        (shortens (fun _ => keyword_spec "finally") hword)
      refine holds_of_place h₃ (fun _ => rfl) (fun _ => List.forall_mem_nil _) fun _ => ?_
      exact (hbegun.append (Places.nil List.suffix_rfl)).append hlast
    · obtain ⟨orElse, c₅, horElse, h₂⟩ := run_bind_eq_some.mp h₁
      obtain ⟨final, c₆, hfinal, h₃⟩ := run_bind_eq_some.mp h₂
      refine holds_of_place h₃ (fun _ => rfl) (fun _ => hhandler) fun _ => ?_
      exact (hbegun.append (places_suiteBehind horElse)).append (places_suiteBehind hfinal)
  dsimp only at h₂
  split at h₂
  · obtain ⟨group, c₃, hgroup, h₃⟩ := run_bind_eq_some.mp h₂
    exact hrest (shortens (fun _ => isSecond_spec _) hgroup) h₃
  · exact hrest List.suffix_rfl h₂

/-! #### Statements -/

/-- A statement that is read behind its first token. -/
theorem places_of_expect {l : Lexeme} {f : Token → Reader Node} (hl : l.isLayout = false)
    (hf : ∀ {t c n c'}, (f t).run c = some (n, c') → Holds t n c c')
    (h : (do let start ← peek; expect l; f start : Reader Node).run c = some (n, c')) :
    Places (allStatements [n]) c c' := by
  obtain ⟨start, c₁, hstart, h₁⟩ := run_bind_eq_some.mp h
  obtain ⟨u, c₂, hl', h₂⟩ := run_bind_eq_some.mp h₁
  obtain ⟨rfl, rest, hc₁⟩ := run_peek_eq_some.mp hstart
  obtain ⟨t, rfl, hc₂⟩ := ahead_of_expect hl'
  cases hc₁.symm.trans hc₂
  exact (hf h₂).places hl hc₂

theorem holds_functionStatement {start : Token} {async : Bool} {decorators : List Node}
    (h : (s.functionStatement start async decorators).run c = some (n, c')) :
    Holds start n c c' := by
  have hparameters : ∀ T, ⦃within T⦄ s.expressions.parameterList true ")" s.fuel {}
      ⦃yields T anything⦄ := by
    intro T
    have hlist := parameterList_spec (e := s.expressions) true ")" s.fuel {}
    mvcgen [hlist] with grind -ring -linarith [listMade_nil]
  have hreturns := behind?_made (Expressions.Making.expression (e := s.expressions)) (.mark "->")
  obtain ⟨name, c₁, hname, h₁⟩ := run_bind_eq_some.mp h
  obtain ⟨u, c₂, hopen, h₂⟩ := run_bind_eq_some.mp h₁
  obtain ⟨parameters, c₃, hlist, h₃⟩ := run_bind_eq_some.mp h₂
  obtain ⟨u', c₄, hclose, h₄⟩ := run_bind_eq_some.mp h₃
  obtain ⟨returns, c₅, hresult, h₅⟩ := run_bind_eq_some.mp h₄
  obtain ⟨body, c₆, hbody, h₆⟩ := run_bind_eq_some.mp h₅
  have hc₁ := shortens (fun _ => word_spec) hname
  have hc₂ := (shortens (fun _ => mark_spec "(") hopen).trans hc₁
  have hc₃ := (shortens hparameters hlist).trans hc₂
  have hc₄ := (shortens (fun _ => mark_spec ")") hclose).trans hc₃
  have hc₅ := (shortens hreturns hresult).trans hc₄
  exact holds_of_place h₆ (fun _ => rfl) (fun _ => trivial) fun _ =>
    (places_suite hbody).1.after hc₅

theorem holds_classStatement {start : Token} {decorators : List Node}
    (h : (s.classStatement start decorators).run c = some (n, c')) : Holds start n c c' := by
  have hrest (name : String) (bases keywords : List Node) {c₁ : Cursor}
      (hc₁ : c₁.ahead <:+ c.ahead)
      (h : (do let body ← s.suite
               pure (.classDef (← placeFrom start) name bases keywords body decorators) :
        Reader Node).run c₁ = some (n, c')) : Holds start n c c' := by
    obtain ⟨body, c₂, hbody, h₁⟩ := run_bind_eq_some.mp h
    exact holds_of_place h₁ (fun _ => rfl) (fun _ => trivial) fun _ =>
      (places_suite hbody).1.after hc₁
  obtain ⟨name, c₁, hname, h₁⟩ := run_bind_eq_some.mp h
  obtain ⟨bracket, c₂, hbracket, h₂⟩ := run_bind_eq_some.mp h₁
  have hc₁ := shortens (fun _ => word_spec) hname
  have hc₂ := (shortens (fun _ => atMark_spec "(") hbracket).trans hc₁
  split at h₂
  · obtain ⟨arguments, c₃, harguments, h₃⟩ := run_bind_eq_some.mp h₂
    exact hrest name _ _ ((shortens (fun _ => arguments_spec false) harguments).trans hc₂) h₃
  · exact hrest name _ _ hc₂ h₂

/-- A function or class behind its decorators. -/
theorem places_definition {decorators : List Node}
    (h : (s.definition decorators).run c = some (n, c')) : Places (allStatements [n]) c c' := by
  obtain ⟨start, c₁, hstart, h₁⟩ := run_bind_eq_some.mp h
  obtain ⟨isClass, c₂, hclass, h₂⟩ := run_bind_eq_some.mp h₁
  obtain ⟨rfl, rest, hc₁⟩ := run_peek_eq_some.mp hstart
  have htaken {t : Token} {k : String} {c₃ : Cursor} (ht : t.lexeme = .keyword k)
      (hc : c₁.ahead = t :: c₃.ahead) (hn : Holds start n c₃ c') :
      Places (allStatements [n]) c₁ c' := by
    cases hc₁.symm.trans hc
    exact hn.places (ht ▸ rfl) hc
  rcases ahead_of_accept hclass with ⟨rfl, t, ht, hc₂⟩ | ⟨rfl, rfl⟩
  · exact htaken ht hc₂ (holds_classStatement h₂)
  · obtain ⟨isFunction, c₃, hfunction, h₃⟩ := run_bind_eq_some.mp h₂
    rcases ahead_of_accept hfunction with ⟨rfl, t, ht, hc₃⟩ | ⟨rfl, rfl⟩
    · exact htaken ht hc₃ (holds_functionStatement h₃)
    · obtain ⟨u, c₄, hasync, h₄⟩ := run_bind_eq_some.mp h₃
      obtain ⟨u', c₅, hdef, h₅⟩ := run_bind_eq_some.mp h₄
      obtain ⟨t, ht, hc₄⟩ := ahead_of_expect hasync
      have hc₅ := shortens (fun _ => keyword_spec "def") hdef
      exact htaken ht hc₄ ((holds_functionStatement h₅).after hc₅)

theorem places_asyncStatement (h : s.asyncStatement.run c = some (n, c')) :
    Places (allStatements [n]) c c' := by
  refine places_of_expect rfl (fun {start c n c'} h => ?_) h
  obtain ⟨isFunction, c₁, hfunction, h₁⟩ := run_bind_eq_some.mp h
  have hc₁ := shortens (fun _ => acceptKeyword_spec "def") hfunction
  split at h₁
  · exact (holds_functionStatement h₁).after hc₁
  · obtain ⟨isLoop, c₂, hloop, h₂⟩ := run_bind_eq_some.mp h₁
    have hc₂ := (shortens (fun _ => acceptKeyword_spec "for") hloop).trans hc₁
    split at h₂
    · exact (holds_forStatement h₂).after hc₂
    · obtain ⟨u, c₃, hword, h₃⟩ := run_bind_eq_some.mp h₂
      have hc₃ := (shortens (fun _ => keyword_spec "with") hword).trans hc₂
      exact (holds_withStatement h₃).after hc₃

/-- The statements of a case are placed. -/
theorem places_caseBlock (h : s.caseBlock.run c = some (n, c')) :
    Places (statementsWithin n) c c' := by
  obtain ⟨u, c₁, hword, h₁⟩ := run_bind_eq_some.mp h
  obtain ⟨pattern, c₂, hpattern, h₂⟩ := run_bind_eq_some.mp h₁
  obtain ⟨guard, c₃, hguard, h₃⟩ := run_bind_eq_some.mp h₂
  obtain ⟨body, c₄, hbody, h₄⟩ := run_bind_eq_some.mp h₃
  have hguards := behind?_made (fun _ => namedExpression_spec (e := s.expressions))
    (.keyword "if")
  have hc₁ := shortens (fun _ => expect_spec (.word "case")) hword
  have hc₂ := (shortens (fun _ => Patterns.casePattern_spec) hpattern).trans hc₁
  have hc₃ := (shortens hguards hguard).trans hc₂
  have hplaces := (places_suite hbody).1.after hc₃
  cases h₄
  exact hplaces

theorem places_matchStatement (h : s.matchStatement.run c = some (n, c')) :
    Places (allStatements [n]) c c' := by
  refine places_of_expect rfl (fun {start c n c'} h => ?_) h
  obtain ⟨subject, c₁, hsubject, h₁⟩ := run_bind_eq_some.mp h
  have hc₁ := shortens (fun _ => tupleOr_spec (e := s.expressions)
    fun _ => starNamed_spec (e := s.expressions)) hsubject
  split at h₁
  · exact absurd h₁ run_failure_ne_some
  · obtain ⟨u, c₂, hcolon, h₂⟩ := run_bind_eq_some.mp h₁
    obtain ⟨u', c₃, hnewline, h₃⟩ := run_bind_eq_some.mp h₂
    obtain ⟨w, c₄, hindent, h₄⟩ := run_bind_eq_some.mp h₃
    obtain ⟨first, c₅, hfirst, h₅⟩ := run_bind_eq_some.mp h₄
    obtain ⟨rest, c₆, hrest, h₆⟩ := run_bind_eq_some.mp h₅
    obtain ⟨v, c₇, hdedent, h₇⟩ := run_bind_eq_some.mp h₆
    have hc₂ := (shortens (fun _ => mark_spec ":") hcolon).trans hc₁
    have hc₃ := (shortens (fun _ => expect_spec .newline) hnewline).trans hc₂
    have hc₄ := (shortens (fun _ => expect_spec .indent) hindent).trans hc₃
    have hc₇ := shortens (fun _ => expect_spec .dedent) hdedent
    have hcases := places_arms (P := fun _ => True) (fun h => ⟨places_caseBlock h, trivial⟩) hrest
    exact holds_of_place h₇ (fun _ => rfl) (fun _ => trivial) fun _ =>
      (((places_caseBlock hfirst).append hcases.1).before hc₇).after hc₄

/-- A statement is placed, or the simple statements of a line are. -/
theorem places_statement (h : s.statement.run c = some (ns, c')) :
    Places (allStatements ns) c c' ∧ ns ≠ [] := by
  have hone {r : Reader Node} {c₁ : Cursor}
      (hr : ∀ {n}, r.run c₁ = some (n, c') → Places (allStatements [n]) c c')
      (h : (statement.one r).run c₁ = some (ns, c')) : Places (allStatements ns) c c' ∧ ns ≠ [] := by
    obtain ⟨n, c₂, hn, h₁⟩ := run_bind_eq_some.mp h
    obtain ⟨rfl, rfl⟩ := run_pure_eq_some.mp h₁
    exact ⟨hr hn, List.cons_ne_nil _ _⟩
  obtain ⟨start, c₁, hstart, h₁⟩ := run_bind_eq_some.mp h
  obtain ⟨rfl, rest, hc₁⟩ := run_peek_eq_some.mp hstart
  have hbehind {l : Lexeme} (hl : start.lexeme = l) (hlayout : l.isLayout = false)
      {r : Reader Node} (hr : ∀ {c n}, r.run c = some (n, c') → Holds start n c c')
      (h : (do let _ ← advance; statement.one r : Reader (List Node)).run c₁ = some (ns, c')) :
      Places (allStatements ns) c₁ c' ∧ ns ≠ [] := by
    obtain ⟨t, c₂, ht, h₂⟩ := run_bind_eq_some.mp h
    have hc₂ := ahead_of_advance ht
    cases hc₁.symm.trans hc₂
    exact hone (fun hn => (hr hn).places (hl ▸ hlayout) hc₂) h₂
  split at h₁
  case h_1 hl => exact hbehind hl rfl holds_branchFrom h₁
  case h_2 hl => exact hbehind hl rfl holds_whileStatement h₁
  case h_3 hl => exact hbehind hl rfl holds_forStatement h₁
  case h_4 hl => exact hbehind hl rfl holds_withStatement h₁
  case h_5 hl => exact hbehind hl rfl holds_tryStatement h₁
  case h_6 => exact hone places_definition h₁
  case h_7 => exact hone places_definition h₁
  case h_8 => exact hone places_asyncStatement h₁
  case h_9 =>
    refine hone (fun h => ?_) h₁
    obtain ⟨decorators, c₂, hdecorators, h₂⟩ := run_bind_eq_some.mp h
    have hspec := fun T => while?_spec (T := T) (fun _ => acceptMark_spec "@")
      (fun _ => decorator_spec (s := s)) Node.Made.mono s.fuel
    exact (places_definition h₂).after (shortens hspec hdecorators)
  case h_10 =>
    rcases run_of_orElse h₁ with h₁ | h₁
    · exact hone places_matchStatement h₁
    · exact places_simpleStatements h₁
  case h_11 => exact places_simpleStatements h₁

theorem places_statementsUntil {ends : Lexeme} {fuel : Nat}
    (h : (s.statementsUntil ends fuel).run c = some (ns, c')) : Places (allStatements ns) c c' := by
  induction fuel generalizing c ns with
  | zero => exact absurd h run_failure_ne_some
  | succ fuel ih =>
    obtain ⟨next, c₁, hnext, h₁⟩ := run_bind_eq_some.mp h
    obtain ⟨rfl, -⟩ := run_isNext_eq_some.mp hnext
    split at h₁
    · obtain ⟨rfl, rfl⟩ := run_pure_eq_some.mp h₁
      exact Places.nil List.suffix_rfl
    · obtain ⟨first, c₂, hfirst, h₂⟩ := run_bind_eq_some.mp h₁
      obtain ⟨rest, c₃, hrest, h₃⟩ := run_bind_eq_some.mp h₂
      obtain ⟨rfl, rfl⟩ := run_pure_eq_some.mp h₃
      rw [allStatements_append]
      exact (places_statement hfirst).1.append (ih hrest)

theorem places_blockOf (h : s.blockOf.run c = some (ns, c')) :
    Places (allStatements ns) c c' ∧ ns ≠ [] := by
  obtain ⟨indented, c₁, hindented, h₁⟩ := run_bind_eq_some.mp h
  have hc₁ := shortens (fun _ => accept_spec .newline) hindented
  split at h₁
  · obtain ⟨u, c₂, hindent, h₂⟩ := run_bind_eq_some.mp h₁
    obtain ⟨first, c₃, hfirst, h₃⟩ := run_bind_eq_some.mp h₂
    obtain ⟨rest, c₄, hrest, h₄⟩ := run_bind_eq_some.mp h₃
    obtain ⟨u', c₅, hdedent, h₅⟩ := run_bind_eq_some.mp h₄
    obtain ⟨rfl, rfl⟩ := run_pure_eq_some.mp h₅
    have hc₂ := (shortens (fun _ => expect_spec .indent) hindent).trans hc₁
    have hc₅ := shortens (fun _ => expect_spec .dedent) hdedent
    obtain ⟨hplaces, hne⟩ := places_statement hfirst
    refine ⟨?_, List.append_ne_nil_of_left_ne_nil hne _⟩
    rw [allStatements_append]
    exact ((hplaces.append (places_statementsUntil hrest)).before hc₅).after hc₂
  · obtain ⟨hplaces, hne⟩ := places_simpleStatements h₁
    exact ⟨hplaces.after hc₁, hne⟩

/-- Blocks of all nestings place their statements. -/
instance placing_nested (fuel : Nat) (p : Patterns) [p.Making] (n : Nat) :
    Placing (nested (Expressions.nested fuel) p n) := by
  induction n with
  | zero =>
    exact { refuses_assigned := refuses_assigned fuel
            places_block := fun _ _ _ h => absurd h run_failure_ne_some }
  | succ n ih =>
    exact { refuses_assigned := refuses_assigned fuel
            places_block := fun _ _ _ h => places_blockOf h }

end Statements

/-! ### Modules -/

/-- **The statements of a module stand in the order of its text**, and handlers are that. -/
theorem pairwise_before_allStatements {source : String} {body : List Node}
    (h : parseModule source = .ok body) :
    ((allStatements body).map Node.position).Pairwise Position.Before ∧
      ∀ n ∈ allStatements body, n.Handled := by
  unfold parseModule readSource at h
  dsimp only at h
  split at h
  · cases h
  · split at h
    · cases h
    · rename_i T hT
      split at h
      · rename_i hread
        cases h
        obtain ⟨ns, c₁, hns, h₁⟩ := Reader.run_bind_eq_some.mp hread
        obtain ⟨u, c₂, hfinish, h₂⟩ := Reader.run_bind_eq_some.mp h₁
        obtain ⟨rfl, rfl⟩ := Reader.run_pure_eq_some.mp h₂
        have hplaces := Statements.places_statementsUntil hns
        have hsublist := (List.sublist_append_left _ _).trans hplaces.taken
        exact ⟨(pairwise_before_tokensFrom? hT).sublist hsublist, hplaces.handled⟩
      · cases h

end Syntax

end Concordance
