import Concordance.Proofs.Syntax.HintTexts
import Concordance.Proofs.Syntax.Names

/-!
# Expressions are made from their tokens

The readers of expressions are followed one by one, with the triples of `Reader`. The expressions of
the next nesting are a parameter of theirs, and so is what is known of those: that the texts of
hints in them fit into the tokens they were read from, and that their names are words among these.

A text that is formatted holds expressions that are read from tokens of its own. No hint is looked
for in there, but names are.

## Main definitions

* `Node.Made`: a tree whose texts of hints and whose names come from some tokens
* `Expressions.Making`: readers of such expressions

## Main results

* `Expressions.texts_spec`: texts next to each other fit into their tokens
* `Expressions.making_nested`: expressions of all nestings
* `length_lt_of_parseExpression`: a text that an expression holds as a hint is shorter than the
  source of the expression
-/

namespace Concordance.Syntax

open Std.Do

set_option mvcgen.warning false

/-! ### Trees -/

namespace Node

/-- What a tree holds comes from some tokens: its texts of hints fit into them, and its names are
words. -/
structure Made (T : List Token) (n : Node) : Prop where
  light : n.Light T
  written : n.Written T

/-- Whether a node of this kind has no name, is well-formed whatever its parts are, and is neither a
text nor read as a hint through its parts. -/
def isBare : Node → Bool
  | .name .. | .member .. | .classDef .. | .functionDef .. => false
  | .constant _ (.string _) => false
  | .constant _ .none | .constant _ .true | .constant _ .false | .constant _ .ellipsis
  | .constant _ (.int _) | .constant _ (.decimal ..) | .constant _ (.imaginary ..)
  | .constant _ (.halved _) | .constant _ (.bytes _) => true
  | .binary .. | .subscript .. | .tuple .. => false
  | .comprehension .. => false
  | .lambda .. => false
  | .call .. | .dict .. | .await .. | .named .. => true
  | .keyword .. | .generator .. | .parameters .. | .parameter .. => true
  | .matchAs .. | .matchStar .. | .matchMapping .. => true
  | .assign .. | .annAssign .. | .augAssign .. => true
  | .importModules .. | .importFrom .. | .outerNames .. => true
  | .branch .. | .loop .. | .guarded .. | .within .. => true
  | .handler .. | .withItem .. | .matchCase .. | .plain .. => true

attribute [grind =] isBare parts
attribute [grind ←] Made.written

variable {T T' : List Token}

@[grind →] theorem Made.mono {n : Node} (h : n.Made T) (hT : T <:+ T') : n.Made T' :=
  ⟨h.light.mono hT, h.written.mono hT⟩

/-- Such a node is made from tokens as soon as its parts are. -/
@[grind ←] theorem made_of_isBare {n : Node} (hbare : n.isBare)
    (hparts : ∀ p ∈ n.parts, p.Written T) : n.Made T := by
  refine ⟨fun s hs => ?_, written_of_parts ?_ ?_ hparts⟩
  · cases n with
    | constant p l => cases l <;> simp_all [isBare, hintTexts]
    | _ => simp_all [isBare, hintTexts]
  · cases n <;> simp_all [isBare, ownNames]
  · cases n <;> simp_all [isBare, isFormed]

/-- A node with a name of its own. -/
theorem made_of_name {n : Node} {name : String} (hown : n.ownNames = [name])
    (hformed : n.isFormed) (htexts : n.hintTexts = []) (hname : IsWordOf T name)
    (hparts : ∀ p ∈ n.parts, p.Written T) : n.Made T := by
  refine ⟨by simp [Light, htexts], .intro ?_ hformed hparts⟩
  rwa [hown, List.forall_mem_singleton]

@[grind ←] theorem made_name (p : Place) {id : String} (u : Use) (h : IsWordOf T id) :
    (name p id u).Made T :=
  made_of_name rfl rfl rfl h (List.forall_mem_nil _)

@[grind ←] theorem made_member (p : Place) {v : Node} {attr : String} (u : Use)
    (h : IsWordOf T attr) (hv : v.Written T) : (member p v attr u).Made T :=
  made_of_name rfl rfl rfl h (List.forall_mem_singleton.mpr hv)

@[grind ←] theorem made_classDef (p : Place) {id : String}
    {bases keywords body decorators : List Node} (h : IsWordOf T id)
    (hparts : ∀ q ∈ (classDef p id bases keywords body decorators).parts, q.Written T) :
    (classDef p id bases keywords body decorators).Made T :=
  made_of_name rfl rfl rfl h hparts

@[grind ←] theorem made_functionDef (p : Place) (async : Bool) {id : String} {parameters : Node}
    {body decorators : List Node} {returns : Option Node} (h : IsWordOf T id)
    (hparameters : parameters.isParameters true)
    (hparts : ∀ q ∈ (functionDef p async id parameters body decorators returns).parts,
      q.Written T) :
    (functionDef p async id parameters body decorators returns).Made T :=
  made_of_name rfl hparameters rfl h hparts

@[grind ←] theorem made_lambda (p : Place) {ps body : Node}
    (hparameters : ps.isParameters false) (hwritten : ps.Written T)
    (hbody : body.Written T) : (lambda p ps body).Made T :=
  ⟨by simp [Light, hintTexts],
    written_of_parts rfl hparameters (by simp [parts, hwritten, hbody])⟩

/-- A clause of a comprehension that is made from some tokens. -/
def ClauseMade (T : List Token) (n : Node) : Prop := n.Made T ∧ n.isGenerator

attribute [grind =] ClauseMade

@[grind →] theorem ClauseMade.mono {n : Node} (h : n.ClauseMade T) (hT : T <:+ T') :
    n.ClauseMade T' :=
  ⟨h.1.mono hT, h.2⟩

/-- A comprehension with a clause. -/
@[grind ←] theorem made_comprehension (p : Place) (form : Comprehension)
    {elements generators : List Node} (helements : ∀ n ∈ elements, n.Written T)
    (hgenerators : ∀ n ∈ generators, n.ClauseMade T) (hclause : generators ≠ []) :
    (comprehension p form elements generators).Made T := by
  have hformed : (comprehension p form elements generators).isFormed := by
    simpa [isFormed, hclause] using fun n hn => (hgenerators n hn).2
  refine ⟨by simp [Light, hintTexts], written_of_parts rfl hformed fun n hn => ?_⟩
  exact (List.mem_append.mp hn).elim (helements n) fun hn => (hgenerators n hn).1.written

@[grind ←] theorem made_tuple (p : Place) (u : Use) {items : List Node}
    (h : ∀ n ∈ items, n.Made T) : (tuple p items u).Made T :=
  ⟨(light_tuple p items u).mpr fun n hn => (h n hn).light,
    written_of_parts rfl rfl fun n hn => (h n hn).written⟩

@[grind ←] theorem written_tuple (p : Place) (u : Use) {items : List Node}
    (h : ∀ n ∈ items, n.Written T) : (tuple p items u).Written T :=
  written_of_parts rfl rfl h

@[grind ←] theorem made_binary (p : Place) (op : Operator) {left right : Node}
    (hleft : left.Made T) (hright : right.Made T) : (binary p op left right).Made T :=
  ⟨(light_binary p op left right).mpr ⟨hleft.light, hright.light⟩,
    written_of_parts rfl rfl (by simp [parts, hleft.written, hright.written])⟩

@[grind ←] theorem made_subscript (p : Place) (u : Use) {value slice : Node}
    (hvalue : value.Written T) (hslice : slice.Made T) : (subscript p value slice u).Made T :=
  ⟨(light_subscript p value slice u).mpr hslice.light,
    written_of_parts rfl rfl (by simp [parts, hvalue, hslice.written])⟩

theorem made_constant {p : Place} {v : Literal} (h : (constant p v).Light T) :
    (constant p v).Made T :=
  ⟨h, written_of_parts rfl rfl (List.forall_mem_nil _)⟩

@[grind ←] theorem made_ofPoints (p : Place) {points : List Nat}
    (h : points.length + 2 ≤ room T) : (constant p (.ofPoints points)).Made T :=
  made_constant (light_ofPoints p h)

@[grind =>] theorem made_number {t : Token} {v : Literal} (ht : t ∈ T)
    (hv : t.lexeme = .number v) (p : Place) : (constant p v).Made T :=
  made_constant (light_number ht hv p)

/-- Parameters have no names or texts of their own. -/
@[grind =] theorem written_parameters (po p : List Node) (rest : Option Node) (ko kd : List Node)
    (keywordRest : Option Node) (d : List Node) :
    (parameters po p rest ko kd keywordRest d).Written T ↔
      (∀ n ∈ po, n.Written T) ∧ (∀ n ∈ p, n.Written T) ∧ (∀ n ∈ rest.toList, n.Written T) ∧
        (∀ n ∈ ko, n.Written T) ∧ (∀ n ∈ kd, n.Written T) ∧
          (∀ n ∈ keywordRest.toList, n.Written T) ∧ ∀ n ∈ d, n.Written T := by
  rw [written_iff]
  simp [ownNames, isFormed, parts, or_imp, forall_and]

end Node

namespace Expressions

open Reader Node

/-! ### Readers of expressions -/

@[grind →] theorem written_of_asTarget? {T : List Token} {u : Use} {n t : Node} (h : n.Made T)
    (ht : asTarget? u n = some t) : t.Written T :=
  written_asTarget? n h.written ht

@[grind →] theorem written_of_asStarTarget? {T : List Token} {n t : Node} (h : n.Made T)
    (ht : asStarTarget? n = some t) : t.Written T :=
  written_asStarTarget? h.written ht

/-- The readers of the next nesting read trees whose names are words. -/
class Making (e : Expressions) : Prop where
  expression : ∀ T, ⦃within T⦄ e.expression ⦃yields T (Node.Made T)⦄
  disjunction : ∀ T, ⦃within T⦄ e.disjunction ⦃yields T (Node.Made T)⦄
  bitwise : ∀ T, ⦃within T⦄ e.bitwise ⦃yields T (Node.Made T)⦄
  factor : ∀ T, ⦃within T⦄ e.factor ⦃yields T (Node.Made T)⦄

attribute [spec] Making.expression Making.disjunction Making.bitwise Making.factor

variable {e : Expressions} {T : List Token}

@[spec] theorem required_spec {α : Type} (a : Option α) :
    ⦃within T⦄ required a ⦃yields T (a = some ·)⦄ := by
  mvcgen [required]

@[spec] theorem starredOf_spec {operand : Reader Node}
    (h : ∀ T, ⦃within T⦄ operand ⦃yields T (Node.Made T)⦄) :
    ⦃within T⦄ starredOf operand ⦃yields T (Node.Made T)⦄ := by
  mvcgen [starredOf, h] with grind -ring -linarith

@[spec] theorem atListEnd_spec : ⦃within T⦄ atListEnd ⦃yields T anything⦄ := by
  mvcgen [atListEnd] with grind -ring -linarith

@[spec] theorem atClause_spec : ⦃within T⦄ atClause ⦃yields T anything⦄ := by
  mvcgen [atClause] with grind -ring -linarith

theorem tupleOr_spec {item : Reader Node}
    (h : ∀ T, ⦃within T⦄ item ⦃yields T (Node.Made T)⦄) :
    ⦃within T⦄ e.tupleOr item ⦃yields T (Node.Made T)⦄ := by
  have hrest := fun T =>
    commaList_spec (T := T) (fun _ => atListEnd_spec) h Node.Made.mono e.fuel
  mvcgen [tupleOr, h, hrest] with grind -ring -linarith

variable [Making e]

@[spec] theorem namedExpression_spec :
    ⦃within T⦄ e.namedExpression ⦃yields T (Node.Made T)⦄ := by
  mvcgen [namedExpression] with grind -ring -linarith

@[spec] theorem starNamed_spec : ⦃within T⦄ e.starNamed ⦃yields T (Node.Made T)⦄ := by
  mvcgen [starNamed] with grind -ring -linarith

@[spec] theorem starExpression_spec :
    ⦃within T⦄ e.starExpression ⦃yields T (Node.Made T)⦄ := by
  mvcgen [starExpression] with grind -ring -linarith

@[spec] theorem starExpressions_spec :
    ⦃within T⦄ e.starExpressions ⦃yields T (Node.Made T)⦄ :=
  tupleOr_spec fun _ => starExpression_spec

theorem starTargets_spec : ⦃within T⦄ e.starTargets ⦃yields T (Node.Written T)⦄ := by
  have hitem : ∀ T, ⦃within T⦄ (do
      let n ← if ← atMark "*" then starredOf e.bitwise else e.bitwise
      required (asStarTarget? n) : Reader Node) ⦃yields T (Node.Written T)⦄ := by
    intro T
    mvcgen with grind -ring -linarith
  have hrest := fun T =>
    commaList_spec (T := T) (fun _ => atListEnd_spec) hitem Node.Written.mono e.fuel
  mvcgen [starTargets, hitem, hrest] with grind -ring -linarith

@[spec] theorem yieldExpression_spec :
    ⦃within T⦄ e.yieldExpression ⦃yields T (Node.Made T)⦄ := by
  mvcgen [yieldExpression] with grind -ring -linarith

@[spec] theorem assigned_spec : ⦃within T⦄ e.assigned ⦃yields T (Node.Made T)⦄ := by
  mvcgen [assigned] with grind -ring -linarith

@[spec] theorem clause_spec : ⦃within T⦄ e.clause ⦃yields T (Node.ClauseMade T)⦄ := by
  have htargets := fun T => starTargets_spec (e := e) (T := T)
  have hconditions := fun T => while?_spec (T := T) (fun _ => acceptKeyword_spec "if")
    (Making.disjunction (e := e)) Node.Made.mono e.fuel
  mvcgen [clause, htargets, hconditions] with grind -ring -linarith [isGenerator]

@[spec] theorem clauses_spec :
    ⦃within T⦄ e.clauses ⦃yields T fun l => (∀ n ∈ l, n.ClauseMade T) ∧ l ≠ []⦄ := by
  have hrest := fun T => while?_spec (T := T) (fun _ => atClause_spec)
    (fun _ => clause_spec (e := e)) Node.ClauseMade.mono e.fuel
  mvcgen [clauses, hrest] with grind -ring -linarith

theorem behind?_made {r : Reader Node} (hr : ∀ T, ⦃within T⦄ r ⦃yields T (Node.Made T)⦄)
    (l : Lexeme) (T : List Token) :
    ⦃within T⦄ behind? l r ⦃yields T fun a => ∀ n ∈ a.toList, n.Made T⦄ := by
  simp only [Option.mem_toList]
  exact behind?_spec hr Node.Made.mono l

/-! ### Parameters -/

theorem parameterName_spec {hints : Option (Reader Node)}
    (h : ∀ hint ∈ hints, ∀ T, ⦃within T⦄ hint ⦃yields T (Node.Made T)⦄) (T : List Token) :
    ⦃within T⦄ parameterName hints
      ⦃yields T fun n => n.Written T ∧ n.isParameter hints.isSome⦄ := by
  cases hints with
  | none =>
    mvcgen [parameterName]
    all_goals grind -ring -linarith [isParameter]
  | some hint =>
    have hbehind := behind?_made (h hint rfl) (.mark ":")
    mvcgen [parameterName, hbehind]
    all_goals grind -ring -linarith [isParameter]

/-- Parameters that are made from some tokens. -/
def ListMade (hinted : Bool) (T : List Token) (l : ParameterList) : Prop :=
  l.node.Written T ∧ l.node.isParameters hinted

attribute [grind =] ListMade

theorem item_spec {hints : Option (Reader Node)}
    (h : ∀ hint ∈ hints, ∀ T, ⦃within T⦄ hint ⦃yields T (Node.Made T)⦄) (l : ParameterList)
    (T : List Token) :
    ⦃fun c => ⌜c.ahead <:+ T ∧ ListMade hints.isSome T l⌝⦄ parameterList.item e hints l
      ⦃yields T (ListMade hints.isSome T)⦄ := by
  have hname := parameterName_spec h
  have hstarred : ∀ hint ∈ hints.map fun _ => e.starExpression,
      ∀ T, ⦃within T⦄ hint ⦃yields T (Node.Made T)⦄ := by
    rintro _ hstar
    obtain ⟨-, -, rfl⟩ := Option.map_eq_some_iff.mp hstar
    exact fun _ => starExpression_spec
  have hstar := parameterName_spec hstarred
  rw [Option.isSome_map] at hstar
  have hdefault := behind?_made (Making.expression (e := e)) (.mark "=")
  mvcgen [parameterList.item, hdefault, hname, hstar] with
    grind -ring -linarith [ParameterList.node, isParameters]

theorem parameterList_spec (hints : Bool) (close : String) (fuel : Nat) (l : ParameterList)
    (T : List Token) :
    ⦃fun c => ⌜c.ahead <:+ T ∧ ListMade hints T l⌝⦄ e.parameterList hints close fuel l
      ⦃yields T (ListMade hints T)⦄ := by
  have hhints : ∀ hint ∈ if hints then some e.expression else none,
      ∀ T, ⦃within T⦄ hint ⦃yields T (Node.Made T)⦄ := by
    rintro _ hhint
    split at hhint
    · cases hhint
      exact Making.expression
    · cases hhint
  have hitem := fun l => item_spec (e := e) hhints l T
  rw [show (if hints then some e.expression else none).isSome = hints by
    cases hints <;> rfl] at hitem
  induction fuel generalizing l with
  | zero =>
    mvcgen [parameterList]
  | succ fuel ih =>
    mvcgen [parameterList, hitem, ih]
    all_goals grind -ring -linarith

theorem listMade_nil (hinted : Bool) (T : List Token) : ListMade hinted T {} :=
  ⟨written_of_parts rfl rfl (List.forall_mem_nil _), rfl⟩

@[spec] theorem lambdaExpression_spec :
    ⦃within T⦄ e.lambdaExpression ⦃yields T (Node.Made T)⦄ := by
  have hlist := parameterList_spec (e := e) false ":" e.fuel {}
  mvcgen [lambdaExpression, hlist] with grind -ring -linarith [listMade_nil]

/-! ### Brackets -/

@[spec] theorem round_spec : ⦃within T⦄ e.round ⦃yields T (Node.Made T)⦄ := by
  have hrest := fun T => commaList_spec (T := T) (fun _ => atMark_spec ")")
    (fun _ => starNamed_spec (e := e)) Node.Made.mono e.fuel
  mvcgen [round, hrest] with grind -ring -linarith

@[spec] theorem square_spec : ⦃within T⦄ e.square ⦃yields T (Node.Made T)⦄ := by
  have hrest := fun T => commaList_spec (T := T) (fun _ => atMark_spec "]")
    (fun _ => starNamed_spec (e := e)) Node.Made.mono e.fuel
  mvcgen [square, hrest] with grind -ring -linarith

/-- The names in an entry of a dictionary are words. -/
def EntryMade (T : List Token) (entry : Option Node × Node) : Prop :=
  (∀ k ∈ entry.1.toList, k.Made T) ∧ entry.2.Made T

@[grind →] theorem EntryMade.mono {T T' : List Token} {entry : Option Node × Node}
    (h : EntryMade T entry) (hT : T <:+ T') : EntryMade T' entry :=
  ⟨fun k hk => (h.1 k hk).mono hT, h.2.mono hT⟩

attribute [grind =] EntryMade

@[spec] theorem entry_spec : ⦃within T⦄ e.entry ⦃yields T (EntryMade T)⦄ := by
  mvcgen [entry] with grind -ring -linarith

@[spec] theorem atNamed_spec : ⦃within T⦄ atNamed ⦃yields T anything⦄ := by
  mvcgen [atNamed] with grind -ring -linarith

@[spec] theorem dictFrom_spec (start : Token) (k : Option Node) (v : Node) :
    ⦃fun c => ⌜c.ahead <:+ T ∧ EntryMade T (k, v)⌝⦄ e.dictFrom start k v
      ⦃yields T (Node.Made T)⦄ := by
  have hrest := fun T => commaList_spec (T := T) (fun _ => atMark_spec "\x7d")
    (fun _ => entry_spec (e := e)) EntryMade.mono e.fuel
  mvcgen [dictFrom, hrest] with grind -ring -linarith

@[spec] theorem setFrom_spec (start : Token) (v : Node) :
    ⦃fun c => ⌜c.ahead <:+ T ∧ v.Made T⌝⦄ e.setFrom start v ⦃yields T (Node.Made T)⦄ := by
  have hrest := fun T => commaList_spec (T := T) (fun _ => atMark_spec "\x7d")
    (fun _ => starNamed_spec (e := e)) Node.Made.mono e.fuel
  mvcgen [setFrom, hrest] with grind -ring -linarith

@[spec] theorem curly_spec : ⦃within T⦄ e.curly ⦃yields T (Node.Made T)⦄ := by
  mvcgen [curly] with grind -ring -linarith

/-! ### Texts -/

/-- The expression of a field is read from a text of its own. -/
theorem written_fieldExpression {line : Nat} {text : List Char} {n : Node}
    (h : e.fieldExpression line text = some n) : n.Written T := by
  obtain ⟨T', hT', h⟩ := Option.bind_eq_some_iff.mp h
  obtain ⟨⟨n', c⟩, hread, rfl⟩ := Option.map_eq_some_iff.mp h
  have hmade : n'.Made T' := of_run round_spec hread
  exact hmade.written.of_spelled (spelled_tokensFrom? hT')

mutual

theorem written_fieldNode {e : Expressions} [e.Making] {place : Place} {f : Field} {n : Node}
    (h : e.fieldNode place f = some n) : n.Written T := by
  obtain ⟨text, line, format⟩ := f
  rw [fieldNode] at h
  split at h
  · cases h
  · rename_i value hvalue
    have hvalue : value.Written T := written_fieldExpression hvalue
    cases format with
    | none =>
      cases h
      exact written_of_parts rfl rfl (List.forall_mem_singleton.mpr hvalue)
    | some nested =>
      dsimp only at h
      split at h
      · rename_i ns hns
        cases h
        refine written_of_parts rfl rfl (List.forall_mem_cons.mpr ⟨hvalue, ?_⟩)
        exact List.forall_mem_singleton.mpr (written_of_parts rfl rfl (written_fieldNodes hns))
      · cases h

theorem written_fieldNodes {e : Expressions} [e.Making] {place : Place} {fs : List Field}
    {ns : List Node}
    (h : e.fieldNodes place fs = some ns) : ∀ n ∈ ns, n.Written T := by
  cases fs with
  | nil =>
    cases h
    exact List.forall_mem_nil _
  | cons f rest =>
    rw [fieldNodes] at h
    split at h
    · rename_i n ns hn hns
      cases h
      exact List.forall_mem_cons.mpr ⟨written_fieldNode hn, written_fieldNodes hns⟩
    · cases h

end

/-- The fields of texts, one text after the other. -/
theorem written_of_mapM {α : Type} {read : α → Option (List Node)} {texts : List α}
    {parts : List (List Node)} (hread : ∀ a ns, read a = some ns → ∀ n ∈ ns, n.Written T)
    (h : texts.mapM read = some parts) : ∀ n ∈ parts.flatten, n.Written T := by
  induction texts generalizing parts with
  | nil =>
    cases h
    exact List.forall_mem_nil _
  | cons a rest ih =>
    rw [List.mapM_cons] at h
    obtain ⟨ns, hns, h⟩ := Option.bind_eq_some_iff.mp h
    obtain ⟨more, hmore, h⟩ := Option.bind_eq_some_iff.mp h
    cases h
    rw [List.flatten_cons]
    exact List.forall_mem_append.mpr ⟨hread a ns hns, ih hmore⟩

/-- The fields of a text, if it has any. -/
theorem written_of_quotation {place : Place} {line : Nat} {q : Quotation} {ns : List Node}
    (h : (if q.formatted then (fields? q.raw line q.body).bind (e.fieldNodes place)
      else (plainText q).map fun _ => []) = some ns) : ∀ n ∈ ns, n.Written T := by
  split at h
  · obtain ⟨fs, -, h⟩ := Option.bind_eq_some_iff.mp h
    exact written_fieldNodes h
  · obtain ⟨-, -, rfl⟩ := Option.map_eq_some_iff.mp h
    exact List.forall_mem_nil _

@[spec] theorem quotationAhead?_spec : ⦃within T⦄ quotationAhead? ⦃yields T anything⦄ := by
  mvcgen [quotationAhead?]

/-- A text that is taken leaves so much less room to those that follow. -/
@[spec] theorem quotation_spec :
    ⦃within T⦄ quotation
      ⦃⇓? q c => ⌜c.ahead <:+ T ∧ q.2.body.length + 2 + room c.ahead ≤ room T⌝⦄ := by
  mvcgen [quotation]
  rename_i c hc t q hq c' htaken
  have hroom := room_cons_le htaken
  rw [Token.room, hq] at hroom
  exact ⟨(suffix_of_cons htaken).1.trans hc, hroom.trans (room_le_of_suffix hc)⟩

theorem quotations_spec (fuel : Nat) (T : List Token) :
    ⦃within T⦄ while? fuel quotationAhead? quotation
      ⦃⇓? qs c => ⌜c.ahead <:+ T ∧ quotedRoom qs + room c.ahead ≤ room T⌝⦄ := by
  induction fuel generalizing T with
  | zero =>
    mvcgen [while?]
    rename_i c hc
    exact ⟨hc, by simpa [quotedRoom] using room_le_of_suffix hc⟩
  | succ fuel ih =>
    mvcgen [while?, ih]
    all_goals grind -ring -linarith [quotedRoom, → room_le_of_suffix]

@[spec] theorem texts_spec : ⦃within T⦄ e.texts ⦃yields T (Node.Made T)⦄ := by
  have hrest := quotations_spec e.fuel
  mvcgen [texts, hrest] with
    grind -ring -linarith [→ length_text_le, → room_le_of_suffix, written_of_mapM,
      written_of_quotation]

@[spec] theorem atom_spec : ⦃within T⦄ e.atom ⦃yields T (Node.Made T)⦄ := by
  mvcgen [atom, atom.constant] with grind -ring -linarith

/-! ### Calls, members and items -/

@[spec] theorem atKeywordArgument_spec :
    ⦃within T⦄ atKeywordArgument ⦃yields T anything⦄ := by
  mvcgen [atKeywordArgument] with grind -ring -linarith

@[spec] theorem argument_spec (phase : ArgumentPhase) :
    ⦃within T⦄ e.argument phase ⦃yields T fun a => a.2.Made T⦄ := by
  have hstarred := fun T => starredOf_spec (T := T) (Making.expression (e := e))
  mvcgen [argument, hstarred] with grind -ring -linarith

@[spec] theorem moreArguments_spec (fuel : Nat) (phase : ArgumentPhase) :
    ⦃within T⦄ e.moreArguments fuel phase ⦃yields T fun l => ∀ n ∈ l, n.Made T⦄ := by
  induction fuel generalizing T phase with
  | zero => mvcgen [moreArguments]
  | succ fuel ih =>
    mvcgen [moreArguments, ih]
    all_goals grind -ring -linarith

@[spec] theorem arguments_spec (bareGenerator : Bool) :
    ⦃within T⦄ e.arguments bareGenerator
      ⦃yields T fun a => (∀ n ∈ a.1, n.Made T) ∧ ∀ n ∈ a.2, n.Made T⦄ := by
  mvcgen [arguments] with grind -ring -linarith

@[spec] theorem bound_spec :
    ⦃within T⦄ slicePart.bound e ⦃yields T fun l => ∀ n ∈ l, n.Made T⦄ := by
  mvcgen [slicePart.bound] with grind -ring -linarith

@[spec] theorem slicePart_spec : ⦃within T⦄ e.slicePart ⦃yields T (Node.Made T)⦄ := by
  have hstarred := fun T => starredOf_spec (T := T) (Making.expression (e := e))
  mvcgen [slicePart, hstarred] with grind -ring -linarith

@[spec] theorem slices_spec : ⦃within T⦄ e.slices ⦃yields T (Node.Made T)⦄ := by
  have hrest := fun T => commaList_spec (T := T) (fun _ => atMark_spec "]")
    (fun _ => slicePart_spec (e := e)) Node.Made.mono e.fuel
  mvcgen [slices, hrest] with grind -ring -linarith

@[spec] theorem trailers_spec (start : Token) (fuel : Nat) (n : Node) :
    ⦃fun c => ⌜c.ahead <:+ T ∧ n.Made T⌝⦄ e.trailers start fuel n
      ⦃yields T (Node.Made T)⦄ := by
  induction fuel generalizing n with
  | zero =>
    mvcgen [trailers]
  | succ fuel ih =>
    mvcgen [trailers, ih]
    all_goals grind -ring -linarith

@[spec] theorem primary_spec : ⦃within T⦄ e.primary ⦃yields T (Node.Made T)⦄ := by
  mvcgen [primary] with grind -ring -linarith

/-! ### Operators -/

@[spec] theorem awaited_spec : ⦃within T⦄ e.awaited ⦃yields T (Node.Made T)⦄ := by
  mvcgen [awaited] with grind -ring -linarith

@[spec] theorem power_spec : ⦃within T⦄ e.power ⦃yields T (Node.Made T)⦄ := by
  mvcgen [power] with grind -ring -linarith

@[spec] theorem signed_spec : ⦃within T⦄ e.signed ⦃yields T (Node.Made T)⦄ := by
  mvcgen [signed] with grind -ring -linarith

@[spec] theorem operatorAhead?_spec (ops : List (String × Operator)) :
    ⦃within T⦄ operatorAhead? ops ⦃yields T anything⦄ := by
  mvcgen [operatorAhead?] with grind -ring -linarith

omit [Making e] in
theorem joinLeft_spec {operand : Reader Node}
    (h : ∀ T, ⦃within T⦄ operand ⦃yields T (Node.Made T)⦄) (ops : List (String × Operator))
    (start : Token) (fuel : Nat) (n : Node) (T : List Token) :
    ⦃fun c => ⌜c.ahead <:+ T ∧ n.Made T⌝⦄ joinLeft ops operand start fuel n
      ⦃yields T (Node.Made T)⦄ := by
  induction fuel generalizing n with
  | zero =>
    mvcgen [joinLeft]
  | succ fuel ih =>
    mvcgen [joinLeft, h, ih]
    all_goals grind -ring -linarith

omit [Making e] in
theorem operands_spec {operand : Reader Node}
    (h : ∀ T, ⦃within T⦄ operand ⦃yields T (Node.Made T)⦄)
    (levels : List (List (String × Operator))) (T : List Token) :
    ⦃within T⦄ e.operands operand levels ⦃yields T (Node.Made T)⦄ := by
  induction levels generalizing T with
  | nil => exact h T
  | cons ops tighter ih =>
    have hjoin := joinLeft_spec ih
    mvcgen [operands, ih, hjoin]
    all_goals grind -ring -linarith

@[spec] theorem bitwiseExpression_spec :
    ⦃within T⦄ e.bitwiseExpression ⦃yields T (Node.Made T)⦄ :=
  operands_spec (fun _ => signed_spec) _ T

@[spec] theorem acceptComparison_spec : ⦃within T⦄ acceptComparison ⦃yields T anything⦄ := by
  mvcgen [acceptComparison] with grind -ring -linarith

@[spec] theorem comparison_spec : ⦃within T⦄ e.comparison ⦃yields T (Node.Made T)⦄ := by
  have hrest := fun T => while?_spec (T := T) (fun _ => acceptComparison_spec)
    (fun _ => bitwiseExpression_spec (e := e)) Node.Made.mono e.fuel
  mvcgen [comparison, hrest] with grind -ring -linarith

@[spec] theorem negation_spec (fuel : Nat) :
    ⦃within T⦄ e.negation fuel ⦃yields T (Node.Made T)⦄ := by
  induction fuel generalizing T with
  | zero => mvcgen [negation]
  | succ fuel ih =>
    mvcgen [negation, ih]
    all_goals grind -ring -linarith

omit [Making e] in
theorem joined_spec {operand : Reader Node}
    (h : ∀ T, ⦃within T⦄ operand ⦃yields T (Node.Made T)⦄) (k : String) (T : List Token) :
    ⦃within T⦄ e.joined k operand ⦃yields T (Node.Made T)⦄ := by
  have hrest := fun T =>
    while?_spec (T := T) (fun _ => acceptKeyword_spec k) h Node.Made.mono e.fuel
  mvcgen [joined, h, hrest] with grind -ring -linarith

@[spec] theorem disjunctionExpression_spec :
    ⦃within T⦄ e.disjunctionExpression ⦃yields T (Node.Made T)⦄ :=
  joined_spec (joined_spec (fun _ => negation_spec e.fuel) "and") "or" T

@[spec] theorem conditional_spec : ⦃within T⦄ e.conditional ⦃yields T (Node.Made T)⦄ := by
  mvcgen [conditional] with grind -ring -linarith

instance making_nested (n : Nat) : Making (nested n) := by
  induction n with
  | zero => exact ⟨fails, fails, fails, fails⟩
  | succ n ih =>
    exact ⟨fun _ => conditional_spec, fun _ => disjunctionExpression_spec,
      fun _ => bitwiseExpression_spec, fun _ => signed_spec⟩

/-- The texts of hints in an expression on a line fit into the tokens of the line. -/
theorem lineExpression_spec (fuel : Nat) (T : List Token) :
    ⦃within T⦄ lineExpression fuel ⦃yields T (Node.Made T)⦄ := by
  have hexpression := fun T =>
    tupleOr_spec (e := nested fuel) (T := T) (Making.expression (e := nested fuel))
  have hends := while?_stays (fun _ => accept_spec .newline)
    (r := (pure () : Reader Unit)) (fun _ => by mvcgen) fuel
  mvcgen [lineExpression, hexpression, hends] with grind -ring -linarith

end Expressions

/-- A text that stands for a hint in an expression is shorter than the source of the
expression. -/
theorem length_lt_of_parseExpression {source text : String} {n : Node}
    (h : parseExpression source = .ok n) (ht : text ∈ n.hintTexts) :
    text.length < source.length := by
  unfold parseExpression readSource at h
  dsimp only at h
  split at h
  · cases h
  · split at h
    · cases h
    · rename_i T hT
      split at h
      · rename_i hread
        cases h
        have hmade := Reader.of_run (Expressions.lineExpression_spec _ T) hread
        have hroom := room_tokensFrom?_le hT
        have htext := hmade.light text ht
        rw [String.length_toList] at hroom
        omega
      · cases h

end Concordance.Syntax
