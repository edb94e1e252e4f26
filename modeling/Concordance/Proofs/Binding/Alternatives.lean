import Concordance.Proofs.Binding.Termination

/-!
# Spellings of alternatives

A hint can offer several types in more than one way: as `Union[A, B]`, as `A | B`, one type that may
be missing as `Optional[A]`, and every type in it, or all of it, as a text that is read as an
expression. These are inside each other in any order. However a hint is spelled, what counts is the
list of the types that it offers: it denotes what the first of them denotes that denotes anything,
and those behind that one are not looked at.

This is an equation between pieces of work, so that it holds for all answers that are kept, for all
questions that are open, and for the answers that are kept afterwards.

A tuple is nothing to choose from, but the brackets of a generic type may hold one: the only type
of `Union[e]` is `e` if it is no tuple.

## Main definitions

* `Node.unplaced`: a tree without the places of its nodes
* `firstOf`: the first answer of several pieces of work
* `Offers`: the types that an expression offers as a hint
* `Alike`: expressions that spell the same hint

## Main results

* `ofNode_string`: a text is the hint that the expression in it is
* `resolveAnnotated_of_offers`: a hint denotes what the first of its types denotes
* `resolveAnnotated_of_alike`: hints that are spelled alike denote the same
-/

namespace Concordance.Syntax.Node

/-! ### Trees without places -/

mutual

/-- A tree with all its nodes at the same place. -/
def unplaced : Node → Node
  | name _ id u => name default id u
  | constant _ v => constant default v
  | member _ v attr u => member default v.unplaced attr u
  | subscript _ v s u => subscript default v.unplaced s.unplaced u
  | call _ f args keywords => call default f.unplaced (unplacedAll args) (unplacedAll keywords)
  | binary _ op l r => binary default op l.unplaced r.unplaced
  | tuple _ items u => tuple default (unplacedAll items) u
  | dict _ keys values => dict default (unplacedAll keys) (unplacedAll values)
  | await _ v => await default v.unplaced
  | named _ t v => named default t.unplaced v.unplaced
  | lambda _ ps b => lambda default ps.unplaced b.unplaced
  | comprehension _ form elements generators =>
    comprehension default form (unplacedAll elements) (unplacedAll generators)
  | keyword _ id v => keyword default id v.unplaced
  | generator t i conditions => generator t.unplaced i.unplaced (unplacedAll conditions)
  | parameters po p rest ko kd keywordRest d =>
    parameters (unplacedAll po) (unplacedAll p) (unplacedOption rest) (unplacedAll ko)
      (unplacedAll kd) (unplacedOption keywordRest) (unplacedAll d)
  | parameter _ id a => parameter default id (unplacedOption a)
  | matchAs _ p id => matchAs default (unplacedOption p) id
  | matchStar _ id => matchStar default id
  | matchMapping _ keys patterns rest =>
    matchMapping default (unplacedAll keys) (unplacedAll patterns) rest
  | classDef _ id bases keywords body decorators =>
    classDef default id (unplacedAll bases) (unplacedAll keywords) (unplacedAll body)
      (unplacedAll decorators)
  | functionDef _ async id ps body decorators returns =>
    functionDef default async id ps.unplaced (unplacedAll body) (unplacedAll decorators)
      (unplacedOption returns)
  | assign _ targets v => assign default (unplacedAll targets) v.unplaced
  | annAssign _ t a v => annAssign default t.unplaced a.unplaced (unplacedOption v)
  | augAssign _ t op v => augAssign default t.unplaced op v.unplaced
  | importModules _ names => importModules default names
  | importFrom _ source names level => importFrom default source names level
  | outerNames _ global names => outerNames default global names
  | branch _ t body orElse => branch default t.unplaced (unplacedAll body) (unplacedAll orElse)
  | loop _ async t i body orElse =>
    loop default async t.unplaced i.unplaced (unplacedAll body) (unplacedAll orElse)
  | guarded _ group body handlers orElse final =>
    guarded default group (unplacedAll body) (unplacedAll handlers) (unplacedAll orElse)
      (unplacedAll final)
  | within _ async items body => within default async (unplacedAll items) (unplacedAll body)
  | handler _ t id body => handler default (unplacedOption t) id (unplacedAll body)
  | withItem c t => withItem c.unplaced (unplacedOption t)
  | matchCase p g body => matchCase p.unplaced (unplacedOption g) (unplacedAll body)
  | plain _ form ps => plain default form (unplacedAll ps)

/-- Trees next to each other without the places of their nodes. -/
def unplacedAll : List Node → List Node
  | [] => []
  | n :: rest => n.unplaced :: unplacedAll rest

/-- A part that may be missing, without the places of its nodes. -/
def unplacedOption : Option Node → Option Node
  | none => none
  | some n => some n.unplaced

end

/-- Whether an expression is a tuple. -/
def isTuple : Node → Bool
  | tuple .. => true
  | _ => false

@[simp] theorem isTuple_unplaced (n : Node) : n.unplaced.isTuple = n.isTuple := by
  cases n <;> rfl

theorem exists_of_isTuple {n : Node} (h : n.isTuple) : ∃ p items u, n = tuple p items u := by
  cases n with
  | tuple p items u => exact ⟨p, items, u, rfl⟩
  | _ => cases h

end Concordance.Syntax.Node

namespace Concordance.Binding

open Syntax Text

/-- Places have no part in what an expression designates. -/
theorem Designator.ofNode_unplaced (n : Node) : ofNode n.unplaced = ofNode n := by
  induction n using ofNode.induct with
  | case1 => rfl
  | case2 p value attr u ih => simp only [Node.unplaced, ofNode, ih]
  | case3 p callee argument keywords ihcallee ihargument =>
    simp only [Node.unplaced, Node.unplacedAll, ofNode, ihcallee, ihargument]
  | case4 p callee args keywords hargs ih =>
    match args with
    | [] => simp only [Node.unplaced, Node.unplacedAll, ofNode, ih]
    | [a] => exact absurd rfl (hargs a)
    | a :: b :: rest => simp only [Node.unplaced, Node.unplacedAll, ofNode, ih]
  | case5 p target value ih => simp only [Node.unplaced, ofNode, ih]
  | case6 p value ih => simp only [Node.unplaced, ofNode, ih]
  | case7 n _ hmember _ hcall hnamed hawait =>
    cases n with
    | member p value attr u => exact absurd rfl (hmember p value attr u)
    | call p callee args keywords => exact absurd rfl (hcall p callee args keywords)
    | named p target value => exact absurd rfl (hnamed p target value)
    | await p value => exact absurd rfl (hawait p value)
    | _ => rfl

namespace Hint

theorem genericName?_unplaced (n : Node) : genericName? n.unplaced = genericName? n := by
  cases n <;> rfl

theorem ofNodeWith_subscript {text : String → Hint} {p : Place} {type argument : Node} {u : Use}
    (h : ¬ argument.isTuple) :
    ofNodeWith text (.subscript p type argument u) =
      generic (genericName? type) [ofNodeWith text argument] :=
  ofNodeWith.eq_5 _ _ _ _ _ fun _ _ _ htuple => h (htuple ▸ rfl)

/-- Places have no part in what an expression is as a hint. -/
theorem ofNodeWith_unplaced (text : String → Hint) (n : Node) :
    ofNodeWith text n.unplaced = ofNodeWith text n := by
  refine ofNodeWith.induct (fun n => ofNodeWith text n.unplaced = ofNodeWith text n)
    (fun ns => ofNodesWith text (Node.unplacedAll ns) = ofNodesWith text ns)
    ?string ?halved ?or ?tuple ?subscript ?other ?nil ?cons n
  case string =>
    intro p s
    simp only [Node.unplaced, ofNodeWith]
  case halved =>
    intro p points
    simp only [Node.unplaced, ofNodeWith]
  case or =>
    intro p left right ihleft ihright
    simp only [Node.unplaced, ofNodeWith, ihleft, ihright]
  case tuple =>
    intro p type p' items u u' ih
    simp only [Node.unplaced, ofNodeWith, genericName?_unplaced, ih]
  case subscript =>
    intro p type argument u hargument ih
    have htuple : ¬ argument.isTuple := fun h => by
      obtain ⟨p', items, u', rfl⟩ := Node.exists_of_isTuple h
      exact hargument p' items u' rfl
    rw [Node.unplaced, ofNodeWith_subscript htuple, ofNodeWith_subscript (by simpa using htuple),
      genericName?_unplaced, ih]
  case other =>
    intro n hstring hhalved hor _ hsubscript
    have hdesignator := congrArg designator (Designator.ofNode_unplaced n)
    cases n with
    | constant p v =>
      cases v with
      | string s => exact absurd rfl (hstring p s)
      | halved points => exact absurd rfl (hhalved p points)
      | _ => exact hdesignator
    | binary p op left right =>
      cases op with
      | bitOr => exact absurd rfl (hor p left right)
      | _ => exact hdesignator
    | subscript p type argument u => exact absurd rfl (hsubscript p type argument u)
    | _ => exact hdesignator
  case nil => rfl
  case cons =>
    intro n rest ih ihrest
    simp only [Node.unplacedAll, ofNodesWith, ih, ihrest]

/-- Expressions that differ in places only are the same hint. -/
theorem ofNode_congr {n n' : Node} (h : n.unplaced = n'.unplaced) : ofNode n = ofNode n' := by
  rw [ofNode, ← ofNodeWith_unplaced, h, ofNodeWith_unplaced, ofNode]

/-- **A text is the hint that the expression in it is.** -/
theorem ofNode_string {s : String} {n : Node} (h : parseExpression (strip s) = .ok n) (p : Place) :
    ofNode (.constant p (.string s)) = ofNode n := by
  rw [ofNode, ofNode, ofNodeWith, ofText, h]
  refine ofNodeWith_congr fun t ht => ?_
  -- the texts in the expression are shorter than the text, so that both bounds are enough for them
  have hshorter := length_lt_of_parseExpression h ht
  have hstrip := length_strip_le s
  exact (reads_ofText (by omega)).unique (reads_ofText (Nat.lt_succ_self _))

end Hint

namespace Hint

theorem ofNodesWith_eq_map (text : String → Hint) (ns : List Node) :
    ofNodesWith text ns = ns.map (ofNodeWith text) := by
  induction ns with
  | nil => rfl
  | cons n rest ih => rw [ofNodesWith, ih, List.map_cons]

/-- The hints in the brackets of a union come one after the other. -/
theorem generic_union (hints : List Hint) :
    generic (some "Union") hints = hints.foldr .either .nothing := by
  cases hints with
  | nil => rfl
  | cons h rest => rw [generic, if_neg (by decide), if_pos rfl]

theorem generic_optional (h : Hint) : generic (some "Optional") [h] = h := by
  rw [generic, if_pos (by decide)]

end Hint

/-! ### The first answer -/

/-- The answer of one piece of work, or else that of another, which is not done before. -/
def orElse (x y : Resolve (Option Denotation)) : Resolve (Option Denotation) := do
  match ← x with
  | some b => pure (some b)
  | none => y

theorem none_orElse (y : Resolve (Option Denotation)) : orElse (pure none) y = y := by
  rw [orElse, pure_bind]

theorem orElse_none (x : Resolve (Option Denotation)) : orElse x (pure none) = x := by
  refine (congrArg (x >>= ·) ?_).trans (bind_pure x)
  funext found
  cases found <;> rfl

theorem orElse_assoc (x y z : Resolve (Option Denotation)) :
    orElse (orElse x y) z = orElse x (orElse y z) := by
  simp only [orElse, bind_assoc]
  congr
  funext found
  cases found with
  | some b => rw [pure_bind]
  | none => rfl

/-- The first answer of several pieces of work. Those behind it are not done. -/
def firstOf (xs : List (Resolve (Option Denotation))) : Resolve (Option Denotation) :=
  xs.foldr orElse (pure none)

theorem firstOf_append (xs ys : List (Resolve (Option Denotation))) :
    firstOf (xs ++ ys) = orElse (firstOf xs) (firstOf ys) := by
  induction xs with
  | nil => exact (none_orElse _).symm
  | cons x rest ih =>
    calc firstOf (x :: rest ++ ys)
      _ = orElse x (firstOf (rest ++ ys)) := rfl
      _ = orElse (orElse x (firstOf rest)) (firstOf ys) := by rw [ih, orElse_assoc]

section

variable (c : Codebase) (q : Questions) (lookup : Lookup)

theorem resolveHint_either (h h' : Hint) :
    resolveHint c q lookup (.either h h') =
      orElse (resolveHint c q lookup h) (resolveHint c q lookup h') := by
  rw [resolveHint]
  rfl

theorem resolveHint_foldr (hints : List Hint) :
    resolveHint c q lookup (hints.foldr .either .nothing) =
      firstOf (hints.map (resolveHint c q lookup)) := by
  induction hints with
  | nil => rw [List.foldr_nil, resolveHint, List.map_nil, firstOf, List.foldr_nil]
  | cons h rest ih =>
    rw [List.foldr_cons, resolveHint_either, ih, List.map_cons]
    rfl

/-- What a value annotated with an expression denotes. -/
def resolveAnnotated (n : Node) : Resolve (Option Denotation) :=
  resolveHint c q lookup (.ofNode n)

end

/-! ### Alternatives -/

/-- The types that an expression offers as a hint, in order. Every expression offers itself. -/
inductive Offers : Node → List Node → Prop
  | itself (n : Node) : Offers n [n]
  | or {left right : Node} {es es' : List Node} (p : Place) (hleft : Offers left es)
    (hright : Offers right es') : Offers (.binary p .bitOr left right) (es ++ es')
  | union {type e : Node} (p : Place) (u : Use) (htype : Hint.genericName? type = some "Union")
    (he : ¬ e.isTuple) : Offers (.subscript p type e u) [e]
  | unionOf {type : Node} (p p' : Place) (es : List Node) (u u' : Use)
    (htype : Hint.genericName? type = some "Union") :
    Offers (.subscript p type (.tuple p' es u) u') es
  | optional {type e : Node} (p p' : Place) (u : Use)
    (htype : Hint.genericName? type = some "Optional") (he : ¬ e.isTuple) :
    Offers (.subscript p type e u) [e, .constant p' .none]

/-- Expressions that spell the same hint: they are alike up to places, one is a text that the other
one is read from, or they offer the same types with one of them spelled in two ways. -/
inductive Alike : Node → Node → Prop
  | placed {n n' : Node} (h : n.unplaced = n'.unplaced) : Alike n n'
  | quoted {n : Node} {s : String} (p : Place) (h : parseExpression (strip s) = .ok n) :
    Alike n (.constant p (.string s))
  | offered {n n' e e' : Node} {before after : List Node} (hn : Offers n (before ++ e :: after))
    (hn' : Offers n' (before ++ e' :: after)) (he : Alike e e') : Alike n n'
  | symm {n n' : Node} (h : Alike n n') : Alike n' n
  | trans {n n' n'' : Node} (h : Alike n n') (h' : Alike n' n'') : Alike n n''

section

variable {c : Codebase} {q : Questions} {lookup : Lookup}

/-- A hint denotes what the first of the types that it offers denotes. -/
theorem resolveAnnotated_of_offers {n : Node} {es : List Node} (h : Offers n es) :
    resolveAnnotated c q lookup n = firstOf (es.map (resolveAnnotated c q lookup)) := by
  induction h with
  | itself n => exact (orElse_none _).symm
  | or p hleft hright ihleft ihright =>
    rw [List.map_append, firstOf_append, ← ihleft, ← ihright, resolveAnnotated, Hint.ofNode,
      Hint.ofNodeWith, resolveHint_either]
    rfl
  | union p u htype he =>
    rw [resolveAnnotated, Hint.ofNode, Hint.ofNodeWith_subscript he, htype, Hint.generic_union,
      resolveHint_foldr]
    rfl
  | unionOf p p' es u u' htype =>
    rw [resolveAnnotated, Hint.ofNode, Hint.ofNodeWith, htype, Hint.generic_union,
      resolveHint_foldr, Hint.ofNodesWith_eq_map, List.map_map]
    rfl
  | @optional type e p p' u htype he =>
    have hnone : resolveAnnotated c q lookup (.constant p' .none) = pure none := by
      simp [resolveAnnotated, Hint.ofNode, Hint.ofNodeWith, Designator.ofNode, resolveHint,
        resolve]
    rw [List.map_cons, List.map_singleton, hnone, firstOf, List.foldr_cons, List.foldr_cons,
      List.foldr_nil, orElse_none, orElse_none, resolveAnnotated, Hint.ofNode,
      Hint.ofNodeWith_subscript he, htype, Hint.generic_optional]
    rfl

/-- Hints that are spelled alike denote the same. -/
theorem resolveAnnotated_of_alike {n n' : Node} (h : Alike n n') :
    resolveAnnotated c q lookup n = resolveAnnotated c q lookup n' := by
  induction h with
  | placed h => rw [resolveAnnotated, Hint.ofNode_congr h, resolveAnnotated]
  | quoted p h => rw [resolveAnnotated, ← Hint.ofNode_string h p, resolveAnnotated]
  | offered hn hn' he ih =>
    rw [resolveAnnotated_of_offers hn, resolveAnnotated_of_offers hn']
    simp only [List.map_append, List.map_cons, ih]
  | symm h ih => exact ih.symm
  | trans h h' ih ih' => exact ih.trans ih'

end

/-- **However the alternatives of a hint are spelled, it denotes the same.** What an expression
offers decides, whether it is written with `Union`, with bars or with `Optional`: the first of its
types that denotes anything. No type in it, nor all of it, denotes anything else as a text. -/
theorem resolveAnnotated_spellings (c : Codebase) (q : Questions) (lookup : Lookup) :
    (∀ n es, Offers n es →
      resolveAnnotated c q lookup n = firstOf (es.map (resolveAnnotated c q lookup))) ∧
    ∀ n n', Alike n n' → resolveAnnotated c q lookup n = resolveAnnotated c q lookup n' :=
  ⟨fun _ _ => resolveAnnotated_of_offers, fun _ _ => resolveAnnotated_of_alike⟩

/-- Whether an outcome of reading is a name. -/
def readsName (id : String) : Except Syntax.Fault Node → Bool
  | .ok (.name _ read .load) => read = id
  | _ => false

theorem exists_of_readsName {id : String} {read : Except Syntax.Fault Node}
    (h : readsName id read) : ∃ p, read = .ok (.name p id .load) := by
  unfold readsName at h
  split at h
  · rename_i p id'
    exact ⟨p, by rw [of_decide_eq_true h]⟩
  · cases h

/-- `Union[A, 'B']` denotes what `A | B` does, here where only the second name is bound. -/
theorem resolveAnnotated_union_bars :
    let c : Codebase := .ofModules []
    let k : ClassId := ⟨0, ⟨1, 0⟩⟩
    let lookup : Lookup := fun id => pure (if id = "B" then some (.classObject k false) else none)
    let named (id : String) : Node := .name default id .load
    let quoted : Node := .constant default (.string "B")
    let union : Node :=
      .subscript default (named "Union") (.tuple default [named "A", quoted] .load) .load
    let bars : Node := .binary default .bitOr (named "A") (named "B")
    Offers union [named "A", quoted] ∧ Alike bars union ∧
      resolveAnnotated c c.ask lookup bars = resolveAnnotated c c.ask lookup union ∧
      resolveAnnotated c c.ask lookup union =
        firstOf ([named "A", quoted].map (resolveAnnotated c c.ask lookup)) ∧
      resolveAnnotated c c.ask lookup bars = pure (some (.instanceOf k)) := by
  intro c k lookup named quoted union bars
  have hstrip : strip "B" = "B" := by
    have hchars : stripChars ['B'] = ['B'] := by decide +kernel
    rw [strip, show "B".toList = ['B'] by simp, hchars]
  have hname : readsName "B" (parseExpression "B") := by decide +kernel
  obtain ⟨p, hread⟩ := exists_of_readsName hname
  have htext : parseExpression (strip "B") = .ok (.name p "B" .load) := by rw [hstrip, hread]
  have hunion : Offers union ([named "A"] ++ quoted :: []) := .unionOf _ _ _ _ _ rfl
  have hbars : Offers bars ([named "A"] ++ named "B" :: []) := .or _ (.itself _) (.itself _)
  have hplaced : Alike (named "B") (.name p "B" .load) := .placed rfl
  have hquoted : Alike (named "B") quoted := hplaced.trans (.quoted default htext)
  have halike : Alike bars union := .offered hbars hunion hquoted
  have hvalue : resolveAnnotated c c.ask lookup bars = pure (some (.instanceOf k)) := by
    simp [bars, named, lookup, resolveAnnotated, Hint.ofNode, Hint.ofNodeWith, Designator.ofNode,
      resolveHint, resolve, Denotation.called]
  exact ⟨hunion, halike, (resolveAnnotated_spellings c c.ask lookup).2 _ _ halike,
    (resolveAnnotated_spellings c c.ask lookup).1 _ _ hunion, hvalue⟩

end Concordance.Binding
