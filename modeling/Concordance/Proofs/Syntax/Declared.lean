import Concordance.Proofs.Declaration.Naming
import Concordance.Proofs.Syntax.Expressions

/-!
# Names in modules are words

Statements are made from their tokens as expressions are, and so are patterns. Their readers are
followed in the same way, up to that of a whole module. So every name in a module that is read is
spelled as words are: those of its classes and functions, and those that are stored to.

## Main definitions

* `Patterns.Making`, `Statements.Making`: readers of patterns and of blocks

## Main results

* `Statements.making_nested`: blocks of all nestings
* `written_of_parseModule`: names in a module that is read
* `isFilled_of_parseModule`: its comprehensions
* `isWord_of_parseModule`: the names of its classes
-/

namespace Concordance.Syntax

open Std.Do

set_option mvcgen.warning false

/-! ### Patterns -/

namespace Patterns

open Reader Expressions

/-- The readers of the next nesting read trees that are made from the tokens they are given. -/
class Making (p : Patterns) : Prop where
  expressions : p.expressions.Making
  pattern : ∀ T, ⦃within T⦄ p.pattern ⦃yields T (Node.Made T)⦄

attribute [spec] Making.pattern

variable {p : Patterns} {T : List Token}

@[spec] theorem atAnyMark_spec (ms : List String) :
    ⦃within T⦄ atAnyMark ms ⦃yields T anything⦄ := by
  mvcgen [atAnyMark] with grind -ring -linarith

@[spec] theorem captureName_spec : ⦃within T⦄ captureName ⦃yields T anything⦄ := by
  mvcgen [captureName] with grind -ring -linarith

@[spec] theorem signedNumber_spec :
    ⦃within T⦄ signedNumber ⦃yields T fun a => a.1.Made T⦄ := by
  mvcgen [signedNumber] with grind -ring -linarith

@[spec] theorem numberValue_spec : ⦃within T⦄ numberValue ⦃yields T (Node.Made T)⦄ := by
  mvcgen [numberValue] with grind -ring -linarith

@[spec] theorem members_spec (start : Token) (fuel : Nat) (n : Node) :
    ⦃fun c => ⌜c.ahead <:+ T ∧ n.Made T⌝⦄ dottedName.members start fuel n
      ⦃yields T (Node.Made T)⦄ := by
  induction fuel generalizing n with
  | zero => mvcgen [dottedName.members]
  | succ fuel ih =>
    mvcgen [dottedName.members, ih]
    all_goals grind -ring -linarith

@[spec] theorem dottedName_spec : ⦃within T⦄ p.dottedName ⦃yields T (Node.Made T)⦄ := by
  mvcgen [dottedName] with grind -ring -linarith

@[spec] theorem singleton?_spec : ⦃within T⦄ singleton? ⦃yields T anything⦄ := by
  mvcgen [singleton?] with grind -ring -linarith

@[spec] theorem starPattern_spec : ⦃within T⦄ starPattern ⦃yields T (Node.Made T)⦄ := by
  mvcgen [starPattern] with grind -ring -linarith

variable [Making p]

instance : p.expressions.Making := Making.expressions

@[spec] theorem item_spec : ⦃within T⦄ p.item ⦃yields T (Node.Made T)⦄ := by
  mvcgen [item] with grind -ring -linarith

theorem items_spec {ends : Reader Bool} (h : ∀ T, ⦃within T⦄ ends ⦃yields T anything⦄)
    (T : List Token) :
    ⦃within T⦄ commaList p.fuel ends p.item ⦃yields T fun l => ∀ n ∈ l.2, n.Made T⦄ :=
  commaList_spec h (fun _ => item_spec) Node.Made.mono p.fuel

@[spec] theorem roundPattern_spec : ⦃within T⦄ p.roundPattern ⦃yields T (Node.Made T)⦄ := by
  have hitems := items_spec (p := p) fun _ => atMark_spec ")"
  mvcgen [roundPattern, hitems] with grind -ring -linarith

@[spec] theorem squarePattern_spec : ⦃within T⦄ p.squarePattern ⦃yields T (Node.Made T)⦄ := by
  have hitems := items_spec (p := p) fun _ => atMark_spec "]"
  mvcgen [squarePattern, hitems] with grind -ring -linarith

@[spec] theorem mappingKey_spec : ⦃within T⦄ p.mappingKey ⦃yields T (Node.Made T)⦄ := by
  mvcgen [mappingKey] with grind -ring -linarith

@[spec] theorem mappingEntries_spec (fuel : Nat) :
    ⦃within T⦄ p.mappingEntries fuel
      ⦃yields T fun a => (∀ n ∈ a.1, n.Made T) ∧ ∀ n ∈ a.2.1, n.Made T⦄ := by
  induction fuel generalizing T with
  | zero => mvcgen [mappingEntries]
  | succ fuel ih =>
    mvcgen [mappingEntries, ih]
    all_goals grind -ring -linarith

@[spec] theorem mappingPattern_spec : ⦃within T⦄ p.mappingPattern ⦃yields T (Node.Made T)⦄ := by
  mvcgen [mappingPattern] with grind -ring -linarith

@[spec] theorem classArguments_spec (fuel : Nat) (named : Bool) :
    ⦃within T⦄ p.classArguments fuel named
      ⦃yields T fun a => (∀ n ∈ a.1, n.Made T) ∧ ∀ n ∈ a.2, n.Made T⦄ := by
  induction fuel generalizing T named with
  | zero => mvcgen [classArguments]
  | succ fuel ih =>
    mvcgen [classArguments, ih]
    all_goals grind -ring -linarith

@[spec] theorem namePattern_spec : ⦃within T⦄ p.namePattern ⦃yields T (Node.Made T)⦄ := by
  mvcgen [namePattern] with grind -ring -linarith

@[spec] theorem closedPattern_spec : ⦃within T⦄ p.closedPattern ⦃yields T (Node.Made T)⦄ := by
  mvcgen [closedPattern, closedPattern.value] with grind -ring -linarith

@[spec] theorem wholePattern_spec : ⦃within T⦄ p.wholePattern ⦃yields T (Node.Made T)⦄ := by
  have hrest := fun T => while?_spec (T := T) (fun _ => acceptMark_spec "|")
    (fun _ => closedPattern_spec (p := p)) Node.Made.mono p.fuel
  mvcgen [wholePattern, hrest] with grind -ring -linarith

@[spec] theorem casePattern_spec : ⦃within T⦄ p.casePattern ⦃yields T (Node.Made T)⦄ := by
  have hends : ∀ T, ⦃within T⦄ (do
      if ← atMark ":" then pure true else atKeyword "if" : Reader Bool)
      ⦃yields T anything⦄ := by
    intro T
    mvcgen with grind -ring -linarith
  have hitems := items_spec (p := p) hends
  mvcgen [casePattern, hitems] with grind -ring -linarith

instance making_nested (e : Expressions) [he : e.Making] (n : Nat) : Making (nested e n) := by
  induction n with
  | zero => exact ⟨he, fails⟩
  | succ n ih => exact ⟨he, fun _ => wholePattern_spec⟩

end Patterns

/-! ### Statements -/

/-- Both of two ways to read are followed by what is known of them. -/
theorem Reader.orElse_spec {α : Type} {P : List Token → α → Prop} {r r' : Reader α}
    (h : ∀ T, ⦃within T⦄ r ⦃yields T (P T)⦄) (h' : ∀ T, ⦃within T⦄ r' ⦃yields T (P T)⦄)
    (T : List Token) : ⦃within T⦄ (r <|> r') ⦃yields T (P T)⦄ := by
  intro c hc
  show (wp⟦(r <|> r') c⟧ _).down
  cases hr : r c with
  | none =>
    rw [show (r <|> r') c = r' c by
      show (r c <|> r' c) = r' c
      rw [hr]
      rfl]
    exact h' T c hc
  | some a =>
    rw [show (r <|> r') c = r c by
      show (r c <|> r' c) = r c
      rw [hr]
      rfl]
    exact h T c hc

namespace Statements

open Reader Expressions Node

/-- The blocks of the next nesting are made from the tokens they are given. -/
class Making (s : Statements) : Prop where
  expressions : s.expressions.Making
  patterns : s.patterns.Making
  block : ∀ T, ⦃within T⦄ s.block ⦃yields T fun l => ∀ n ∈ l, n.Made T⦄

attribute [spec] Making.block

variable {s : Statements} {T : List Token}

/-! #### Simple statements -/

@[grind →] theorem written_of_singleTarget? {n t : Node} (h : n.Made T)
    (ht : singleTarget? n = some t) : t.Written T := by
  unfold singleTarget? at ht
  split at ht
  · cases ht
    exact h.written.congr rfl rfl rfl
  · cases ht
    exact h.written.congr rfl rfl rfl
  · cases ht
    exact h.written.congr rfl rfl rfl
  · cases ht

@[spec] theorem importedAs_stays {name : Reader String}
    (h : ∀ T, ⦃within T⦄ name ⦃yields T anything⦄) :
    ⦃within T⦄ importedAs name ⦃yields T anything⦄ := by
  have hword := behind?_stays (stays fun _ => word_spec) (.keyword "as")
  mvcgen [importedAs, h, hword] with grind -ring -linarith

@[spec] theorem moduleName_stays : ⦃within T⦄ s.moduleName ⦃yields T anything⦄ := by
  have hrest := while?_stays (fun _ => acceptMark_spec ".") (stays fun _ => word_spec) s.fuel
  mvcgen [moduleName, hrest] with grind -ring -linarith

@[spec] theorem dots_stays (fuel : Nat) : ⦃within T⦄ dots fuel ⦃yields T anything⦄ := by
  induction fuel generalizing T with
  | zero => mvcgen [dots]
  | succ fuel ih =>
    mvcgen [dots, ih]
    all_goals grind -ring -linarith

theorem importedWord_stays (T : List Token) :
    ⦃within T⦄ importedAs word ⦃yields T anything⦄ :=
  importedAs_stays (stays fun _ => word_spec)

@[spec] theorem importedNames_stays : ⦃within T⦄ s.importedNames ⦃yields T anything⦄ := by
  have hlist := commaList_stays (fun _ => atMark_spec ")") importedWord_stays s.fuel
  have hnames := separated_stays importedWord_stays s.fuel
  mvcgen [importedNames, importedWord_stays, hlist, hnames] with grind -ring -linarith

@[spec] theorem importFromStatement_spec (start : Token) :
    ⦃within T⦄ s.importFromStatement start ⦃yields T (Node.Made T)⦄ := by
  mvcgen [importFromStatement] with grind -ring -linarith

@[spec] theorem atSimpleEnd_spec : ⦃within T⦄ atSimpleEnd ⦃yields T anything⦄ := by
  mvcgen [atSimpleEnd] with grind -ring -linarith

variable [Making s]

instance : s.expressions.Making := Making.expressions

instance : s.patterns.Making := Making.patterns

theorem assignments_spec (fuel : Nat) (value : Node) :
    ⦃fun c => ⌜c.ahead <:+ T ∧ value.Made T⌝⦄ s.assignments fuel value
      ⦃yields T fun a => (∀ n ∈ a.1, n.Written T) ∧ a.2.Made T⦄ := by
  induction fuel generalizing value with
  | zero => mvcgen [assignments]
  | succ fuel ih =>
    mvcgen [assignments, ih]
    all_goals grind -ring -linarith

@[spec] theorem expressionStatement_spec :
    ⦃within T⦄ s.expressionStatement ⦃yields T (Node.Made T)⦄ := by
  have hvalue := behind?_made (fun _ => assigned_spec (e := s.expressions)) (.mark "=")
  have hassignments := assignments_spec (s := s) (T := T) s.fuel
  mvcgen [expressionStatement, hvalue, hassignments] with grind -ring -linarith

@[spec] theorem deletion_spec : ⦃within T⦄ s.deletion ⦃yields T fun l => ∀ n ∈ l, n.Written T⦄ := by
  have hitem : ∀ T, ⦃within T⦄ (do
      let n ← s.expressions.bitwise
      required (asTarget? .delete n) : Reader Node) ⦃yields T (Node.Written T)⦄ := by
    intro T
    mvcgen with grind -ring -linarith
  have hrest := fun T =>
    commaList_spec (T := T) (fun _ => atListEnd_spec) hitem Node.Written.mono s.fuel
  mvcgen [deletion, hitem, hrest] with grind -ring -linarith

@[spec] theorem simpleStatement_spec :
    ⦃within T⦄ s.simpleStatement ⦃yields T (Node.Made T)⦄ := by
  have hmodules := separated_stays
    (fun T => importedAs_stays (T := T) fun _ => moduleName_stays (s := s)) s.fuel
  have hwords := separated_stays (stays fun _ => word_spec) s.fuel
  have hcause := behind?_made (Expressions.Making.expression (e := s.expressions))
    (.keyword "from")
  have htext := behind?_made (Expressions.Making.expression (e := s.expressions)) (.mark ",")
  mvcgen [simpleStatement, hmodules, hwords, hcause, htext] with grind -ring -linarith

@[spec] theorem simpleStatements_spec (fuel : Nat) :
    ⦃within T⦄ s.simpleStatements fuel ⦃yields T fun l => ∀ n ∈ l, n.Made T⦄ := by
  induction fuel generalizing T with
  | zero => mvcgen [simpleStatements]
  | succ fuel ih =>
    mvcgen [simpleStatements, ih]
    all_goals grind -ring -linarith

/-! #### Compound statements -/

@[spec] theorem suite_spec : ⦃within T⦄ s.suite ⦃yields T fun l => ∀ n ∈ l, n.Made T⦄ := by
  mvcgen [suite] with grind -ring -linarith

@[spec] theorem suiteBehind_spec (k : String) :
    ⦃within T⦄ s.suiteBehind k ⦃yields T fun l => ∀ n ∈ l, n.Made T⦄ := by
  mvcgen [suiteBehind] with grind -ring -linarith

@[spec] theorem branchFrom_spec (start : Token) (fuel : Nat) :
    ⦃within T⦄ s.branchFrom start fuel ⦃yields T (Node.Made T)⦄ := by
  induction fuel generalizing T start with
  | zero => mvcgen [branchFrom]
  | succ fuel ih =>
    mvcgen [branchFrom, ih]
    all_goals grind -ring -linarith

@[spec] theorem whileStatement_spec (start : Token) :
    ⦃within T⦄ s.whileStatement start ⦃yields T (Node.Made T)⦄ := by
  mvcgen [whileStatement] with grind -ring -linarith

@[spec] theorem forStatement_spec (start : Token) (async : Bool) :
    ⦃within T⦄ s.forStatement start async ⦃yields T (Node.Made T)⦄ := by
  have htargets := fun T => starTargets_spec (e := s.expressions) (T := T)
  mvcgen [forStatement, htargets] with grind -ring -linarith

@[spec] theorem withItem_spec : ⦃within T⦄ s.withItem ⦃yields T (Node.Made T)⦄ := by
  have hstarred := fun T =>
    starredOf_spec (T := T) (Expressions.Making.bitwise (e := s.expressions))
  mvcgen [withItem, hstarred] with grind -ring -linarith

@[spec] theorem withItems_spec :
    ⦃within T⦄ s.withItems ⦃yields T fun l => ∀ n ∈ l, n.Made T⦄ := by
  have hlist := fun T => commaList_spec (T := T) (fun _ => atMark_spec ")")
    (fun _ => withItem_spec (s := s)) Node.Made.mono s.fuel
  refine orElse_spec (P := fun T (l : List Node) => ∀ n ∈ l, n.Made T) (fun T => ?_)
    (fun _ => separated_spec (fun _ => withItem_spec) Node.Made.mono s.fuel) T
  mvcgen [hlist] with grind -ring -linarith

@[spec] theorem withStatement_spec (start : Token) (async : Bool) :
    ⦃within T⦄ s.withStatement start async ⦃yields T (Node.Made T)⦄ := by
  mvcgen [withStatement] with grind -ring -linarith

@[spec] theorem named_spec (start : Token) (type : Option Node) :
    ⦃fun c => ⌜c.ahead <:+ T ∧ ∀ n ∈ type.toList, n.Made T⌝⦄
      handler.named s start type ⦃yields T (Node.Made T)⦄ := by
  have hname := behind?_stays (stays fun _ => word_spec) (.keyword "as")
  mvcgen [handler.named, hname] with grind -ring -linarith

theorem handler_spec (group : Bool) (T : List Token) :
    ⦃within T⦄ s.handler group ⦃yields T (Node.Made T)⦄ := by
  mvcgen [handler] with grind -ring -linarith

@[spec] theorem tryStatement_spec (start : Token) :
    ⦃within T⦄ s.tryStatement start ⦃yields T (Node.Made T)⦄ := by
  have hhandlers := fun group T => while?_spec (T := T) (fun _ => atKeyword_spec "except")
    (handler_spec (s := s) group) Node.Made.mono s.fuel
  mvcgen [tryStatement, hhandlers] with grind -ring -linarith

@[spec] theorem functionStatement_spec (start : Token) (async : Bool) (decorators : List Node) :
    ⦃fun c => ⌜c.ahead <:+ T ∧ ∀ n ∈ decorators, n.Made T⌝⦄
      s.functionStatement start async decorators ⦃yields T (Node.Made T)⦄ := by
  have hparameters := parameterList_spec (e := s.expressions) true ")" s.fuel {}
  have hreturns := behind?_made (Expressions.Making.expression (e := s.expressions)) (.mark "->")
  mvcgen [functionStatement, hparameters, hreturns] with grind -ring -linarith [listMade_nil]

@[spec] theorem classStatement_spec (start : Token) (decorators : List Node) :
    ⦃fun c => ⌜c.ahead <:+ T ∧ ∀ n ∈ decorators, n.Made T⌝⦄
      s.classStatement start decorators ⦃yields T (Node.Made T)⦄ := by
  mvcgen [classStatement] with grind -ring -linarith

theorem definition_spec (decorators : List Node) :
    ⦃fun c => ⌜c.ahead <:+ T ∧ ∀ n ∈ decorators, n.Made T⌝⦄
      s.definition decorators ⦃yields T (Node.Made T)⦄ := by
  mvcgen [definition] with grind -ring -linarith

@[spec] theorem decorator_spec : ⦃within T⦄ s.decorator ⦃yields T (Node.Made T)⦄ := by
  mvcgen [decorator] with grind -ring -linarith

@[spec] theorem asyncStatement_spec :
    ⦃within T⦄ s.asyncStatement ⦃yields T (Node.Made T)⦄ := by
  mvcgen [asyncStatement] with grind -ring -linarith

@[spec] theorem caseBlock_spec : ⦃within T⦄ s.caseBlock ⦃yields T (Node.Made T)⦄ := by
  have hguard := behind?_made (fun _ => namedExpression_spec (e := s.expressions))
    (.keyword "if")
  mvcgen [caseBlock, hguard] with grind -ring -linarith

@[spec] theorem matchStatement_spec :
    ⦃within T⦄ s.matchStatement ⦃yields T (Node.Made T)⦄ := by
  have hsubject := fun T => tupleOr_spec (e := s.expressions) (T := T)
    fun _ => starNamed_spec (e := s.expressions)
  have hcases := fun T => while?_spec (T := T) (fun _ => isNext_spec (.word "case"))
    (fun _ => caseBlock_spec (s := s)) Node.Made.mono s.fuel
  mvcgen [matchStatement, hsubject, hcases] with grind -ring -linarith

@[spec] theorem statement_spec : ⦃within T⦄ s.statement ⦃yields T fun l => ∀ n ∈ l, n.Made T⦄ := by
  have hdecorators := fun T => while?_spec (T := T) (fun _ => acceptMark_spec "@")
    (fun _ => decorator_spec (s := s)) Node.Made.mono s.fuel
  have hone : ∀ T, ⦃within T⦄ (do
      let n ← s.matchStatement
      pure [n] : Reader (List Node)) ⦃yields T fun l => ∀ n ∈ l, n.Made T⦄ := by
    intro T
    mvcgen with grind -ring -linarith
  have hmatch := orElse_spec hone fun _ => simpleStatements_spec (s := s) s.fuel
  have hdefinition := definition_spec (s := s) (T := T)
  mvcgen [statement, statement.one, hdecorators, hmatch, hdefinition] with grind -ring -linarith

@[spec] theorem statementsUntil_spec (ends : Lexeme) (fuel : Nat) :
    ⦃within T⦄ s.statementsUntil ends fuel ⦃yields T fun l => ∀ n ∈ l, n.Made T⦄ := by
  induction fuel generalizing T with
  | zero => mvcgen [statementsUntil]
  | succ fuel ih =>
    mvcgen [statementsUntil, ih]
    all_goals grind -ring -linarith

@[spec] theorem blockOf_spec : ⦃within T⦄ s.blockOf ⦃yields T fun l => ∀ n ∈ l, n.Made T⦄ := by
  mvcgen [blockOf] with grind -ring -linarith

instance making_nested (e : Expressions) [he : e.Making] (p : Patterns) [hp : p.Making] (n : Nat) :
    Making (nested e p n) := by
  induction n with
  | zero => exact ⟨he, hp, fails⟩
  | succ n ih => exact ⟨he, hp, fun _ => blockOf_spec⟩

end Statements

/-! ### Modules -/

/-- The statements of a module are made from its tokens. -/
theorem moduleBody_spec (fuel : Nat) (T : List Token) :
    ⦃Reader.within T⦄ moduleBody fuel ⦃Reader.yields T fun l => ∀ n ∈ l, n.Made T⦄ := by
  have hbody := fun T => Statements.statementsUntil_spec (T := T) (s := Statements.nested
    (Expressions.nested fuel) (Patterns.nested (Expressions.nested fuel) fuel) fuel) .finish fuel
  mvcgen [moduleBody, hbody] with grind -ring -linarith

/-! ### Names in modules -/

namespace Node

variable {T : List Token}

mutual

/-- What stands within a branch, guard or context has the names of that. -/
theorem written_innerStatements :
    ∀ (n : Node), n.Written T → ∀ s ∈ innerStatements n, s.Written T
  | .branch _ _ body orElse, h, s, hs => by
    rw [innerStatements, List.mem_append] at hs
    rcases hs with hs | hs
    · exact written_moduleStatements body (fun p hp => h.of_mem (by simp [parts, hp])) s hs
    · exact written_moduleStatements orElse (fun p hp => h.of_mem (by simp [parts, hp])) s hs
  | .guarded _ _ body handlers orElse final, h, s, hs => by
    rw [innerStatements, List.mem_append, List.mem_append, List.mem_append] at hs
    rcases hs with ((hs | hs) | hs) | hs
    · exact written_moduleStatements body (fun p hp => h.of_mem (by simp [parts, hp])) s hs
    · exact written_moduleStatements orElse (fun p hp => h.of_mem (by simp [parts, hp])) s hs
    · exact written_moduleStatements final (fun p hp => h.of_mem (by simp [parts, hp])) s hs
    · exact written_handlerStatements handlers (fun p hp => h.of_mem (by simp [parts, hp])) s hs
  | .within _ _ _ body, h, s, hs =>
    written_moduleStatements body (fun p hp => h.of_mem (by simp [parts, hp])) s hs
  | .handler _ _ _ body, h, s, hs =>
    written_moduleStatements body (fun p hp => h.of_mem (by simp [parts, hp])) s hs

/-- The statements of the module level have the names of the module. -/
theorem written_moduleStatements :
    ∀ (nodes : List Node), (∀ n ∈ nodes, n.Written T) → ∀ s ∈ moduleStatements nodes, s.Written T
  | [], _ => List.forall_mem_nil _
  | n :: rest, h => by
    obtain ⟨hn, hrest⟩ := List.forall_mem_cons.mp h
    rw [moduleStatements, List.forall_mem_cons, List.forall_mem_append]
    exact ⟨hn, written_innerStatements n hn, written_moduleStatements rest hrest⟩

theorem written_handlerStatements :
    ∀ (handlers : List Node), (∀ n ∈ handlers, n.Written T) →
      ∀ s ∈ handlerStatements handlers, s.Written T
  | [], _ => List.forall_mem_nil _
  | n :: rest, h => by
    obtain ⟨hn, hrest⟩ := List.forall_mem_cons.mp h
    rw [handlerStatements, List.forall_mem_append]
    exact ⟨written_innerStatements n hn, written_handlerStatements rest hrest⟩

end

mutual

/-- Classes are named by words. -/
theorem isWordOf_classNames :
    ∀ (n : Node), n.Written T → ∀ id ∈ n.classNames, IsWordOf T id
  | .classDef _ _ _ _ body _, h, id, hid => by
    rcases List.mem_cons.mp hid with rfl | hid
    · exact (written_iff.mp h).1 _ List.mem_cons_self
    · exact isWordOf_classNamesAll body (fun p hp => h.of_mem (by simp [parts, hp])) id hid

theorem isWordOf_classNamesAll :
    ∀ (nodes : List Node), (∀ n ∈ nodes, n.Written T) → ∀ id ∈ classNamesAll nodes, IsWordOf T id
  | [], _ => List.forall_mem_nil _
  | n :: rest, h => by
    obtain ⟨hn, hrest⟩ := List.forall_mem_cons.mp h
    rw [classNamesAll, List.forall_mem_append]
    exact ⟨isWordOf_classNames n hn, isWordOf_classNamesAll rest hrest⟩

end

/-- What is known of the parts of a tree is known of all its levels. -/
theorem written_levels {fuel : Nat} {nodes : List Node} (h : ∀ n ∈ nodes, n.Written T) :
    ∀ n ∈ levels fuel nodes, n.Written T := by
  induction fuel generalizing nodes with
  | zero => exact List.forall_mem_nil _
  | succ fuel ih =>
    cases nodes with
    | nil => exact List.forall_mem_nil _
    | cons n rest =>
      rw [levels, List.forall_mem_append]
      refine ⟨h, ih fun p hp => ?_⟩
      obtain ⟨m, hm, hp⟩ := List.mem_flatMap.mp hp
      exact (h m hm).of_mem hp

theorem Written.breadthFirst {n : Node} (h : n.Written T) : ∀ p ∈ n.breadthFirst, p.Written T :=
  written_levels (List.forall_mem_singleton.mpr h)

end Node

/-- The names in a module that is read are spelled as words are, and its comprehensions have a
clause. -/
theorem written_of_parseModule {source : String} {body : List Node}
    (h : parseModule source = .ok body) : ∀ n ∈ body, n.Written [] := by
  unfold parseModule readSource at h
  dsimp only at h
  split at h
  · cases h
  · split at h
    · cases h
    · rename_i T hT
      split at h
      · rename_i hread
        cases h
        intro n hn
        have hmade := Reader.of_run (moduleBody_spec _ T) hread n hn
        exact hmade.written.of_spelled (spelled_tokensFrom? hT)
      · cases h

/-- The comprehensions in a module that is read have a clause, wherever they are. -/
theorem isFilled_of_parseModule {source : String} {body : List Node}
    (h : parseModule source = .ok body) : ∀ n ∈ body, ∀ p ∈ n.breadthFirst, p.isFilled :=
  fun n hn p hp => Node.isFilled_of_isFormed
    (Node.written_iff.mp ((written_of_parseModule h n hn).breadthFirst p hp)).2.1

/-- The classes that a module declares are named by words. -/
theorem isWord_of_parseModule {source : String} {body : List Node}
    (h : parseModule source = .ok body) :
    ∀ s ∈ moduleStatements body, ∀ id ∈ s.classNames, IsWord id := by
  intro s hs id hid
  have hwritten := Node.written_moduleStatements body (written_of_parseModule h) s hs
  exact (Node.isWordOf_classNames s hwritten id hid).isWord (List.forall_mem_nil _)

end Concordance.Syntax
