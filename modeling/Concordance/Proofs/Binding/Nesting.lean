import Concordance.Binding.Walkthrough

/-!
# Scopes are closed as they were opened

The steps of a tree leave no scope open and close none that was open before them, and so do the
steps of any trees one after the other. What stands in the scope that a tree is in is come to in
that scope: the steps before it are balanced, too. So are those before a statement of the level of a
module, and the classes that a module declares are come to within the bodies of classes only.

## Main definitions

* `Step.shift`: whether a step opens or closes a scope
* `Balanced`: steps that close the scopes that they open and no others
* `InScope`: steps that are part of others, in the scope that these begin in
* `sharedParts`: the parts of a tree that are in the same scope as the tree
* `OnlyClasses`: steps after which only bodies of classes are open

## Main results

* `balanced_steps`: the steps of a tree are balanced
* `inScope_of_mem_sharedParts`, `inScope_of_mem_moduleStatements`: what is come to in the same scope
* `opensOutside_of_mem_classes`: declared classes stand within no function
-/

namespace Concordance.Binding

open Syntax

/-! ### Balanced steps -/

/-- What a step does to the scopes that are open. -/
inductive Shift where
  | stays
  | opens
  | closes
deriving DecidableEq

/-- Whether a step opens or closes a scope. -/
def Step.shift : Step → Shift
  | .openClass .. => .opens
  | .openFunction .. => .opens
  | .openScope .. => .opens
  | .closeClass => .closes
  | .closeScope => .closes
  | _ => .stays

/-- The step that closes the scope that a step opens. -/
def Step.closing : Step → Step
  | .openClass .. => .closeClass
  | _ => .closeScope

theorem Step.shift_closing (s : Step) : s.closing.shift = .closes := by
  cases s <;> rfl

/-- Steps that close the scopes that they open, innermost first, and no others. -/
inductive Balanced : List Step → Prop where
  | nil : Balanced []
  | single {s : Step} (hs : s.shift = .stays) : Balanced [s]
  | scope {o : Step} {inner : List Step} (ho : o.shift = .opens) (h : Balanced inner) :
      Balanced (o :: inner ++ [o.closing])
  | append {xs ys : List Step} (hx : Balanced xs) (hy : Balanced ys) : Balanced (xs ++ ys)

theorem balanced_of_forall {xs : List Step} (h : ∀ s ∈ xs, s.shift = .stays) : Balanced xs := by
  induction xs with
  | nil => exact .nil
  | cons s rest ih =>
    have hrest := ih fun t ht => h t (List.mem_cons_of_mem s ht)
    exact (Balanced.single (h s List.mem_cons_self)).append hrest

theorem balanced_map {α : Type} {f : α → Step} (h : ∀ a, (f a).shift = .stays) (l : List α) :
    Balanced (l.map f) :=
  balanced_of_forall fun s hs => by
    obtain ⟨a, -, rfl⟩ := List.mem_map.mp hs
    exact h a

theorem balanced_nameImportSteps (level : Nat) (source : Option String) (names : List Alias) :
    Balanced (names.filterMap (nameImportStep? level source)) := by
  refine balanced_of_forall fun s hs => ?_
  obtain ⟨a, -, ha⟩ := List.mem_filterMap.mp hs
  rw [nameImportStep?] at ha
  split at ha
  · cases ha
  · cases ha
    rfl

mutual

/-- The steps of a tree are balanced. -/
theorem balanced_steps : ∀ t : Node, Balanced (steps t)
  | .name .. => .single rfl
  | .constant .. => .nil
  | .member _ value _ _ => (balanced_steps value).append (.single rfl)
  | .subscript _ value slice _ => (balanced_steps value).append (balanced_steps slice)
  | .call _ callee args keywords =>
    (((balanced_steps callee).append (balanced_stepsAll args)).append
      (balanced_stepsAll keywords)).append (.single rfl)
  | .binary _ _ left right => (balanced_steps left).append (balanced_steps right)
  | .tuple _ items _ => balanced_stepsAll items
  | .dict _ keys values => (balanced_stepsAll keys).append (balanced_stepsAll values)
  | .await _ value => balanced_steps value
  | .named _ target value =>
    ((balanced_steps value).append (balanced_steps target)).append (.single rfl)
  | .lambda _ parameters body => by
    have hscope := Balanced.scope (o := .openScope (parameterNames parameters)) rfl
      (balanced_steps body)
    simpa [steps, Step.closing] using (balanced_stepsOfDefaults parameters).append hscope
  | .comprehension _ _ elements generators => by
    have hscope := Balanced.scope (o := .openScope []) rfl
      ((balanced_stepsOfGenerators true generators).append (balanced_stepsAll elements))
    simpa [steps, Step.closing] using (balanced_stepsOfFirstIter generators).append hscope
  | .keyword _ _ value => balanced_steps value
  | .generator target iter conditions =>
    ((balanced_steps target).append (balanced_steps iter)).append (balanced_stepsAll conditions)
  | .parameters positionalOnly positional rest keywordOnly keywordDefaults keywordRest defaults =>
    ((((((balanced_stepsAll positionalOnly).append (balanced_stepsAll positional)).append
      (balanced_stepsOption rest)).append (balanced_stepsAll keywordOnly)).append
      (balanced_stepsAll keywordDefaults)).append (balanced_stepsOption keywordRest)).append
      (balanced_stepsAll defaults)
  | .parameter _ _ hint => balanced_stepsOption hint
  | .matchAs _ pattern name =>
    (balanced_map (fun _ => rfl) name.toList).append (balanced_stepsOption pattern)
  | .matchStar _ name => balanced_map (fun _ => rfl) name.toList
  | .matchMapping _ keys patterns rest =>
    ((balanced_map (fun _ => rfl) rest.toList).append (balanced_stepsAll keys)).append
      (balanced_stepsAll patterns)
  | .classDef p name bases keywords body decorators => by
    have hscope := Balanced.scope (o := .openClass name ⟨p.line, p.column⟩) rfl
      (balanced_stepsAll body)
    simpa [steps, Step.closing] using (((balanced_stepsAll decorators).append
      (balanced_stepsAll bases)).append (balanced_stepsAll keywords)).append hscope
  | .functionDef _ _ name parameters body decorators returns => by
    have hscope := Balanced.scope
      (o := .openFunction name (signature name parameters decorators)) rfl
      (balanced_stepsAll body)
    simpa [steps, Step.closing] using (((balanced_stepsAll decorators).append
      (balanced_stepsOfDefaults parameters)).append (balanced_stepsOfHints parameters)).append
      ((balanced_stepsOption returns).append hscope)
  | .assign _ targets value =>
    ((balanced_steps value).append (balanced_stepsAll targets)).append (.single rfl)
  | .annAssign _ target hint value =>
    (((balanced_steps hint).append (balanced_stepsOption value)).append
      (balanced_steps target)).append (balanced_map (fun _ => rfl) _)
  | .augAssign _ target _ value => by
    have htarget := balanced_steps target
    have hvalue := balanced_steps value
    cases target with
    | member _ owner _ _ => exact ((balanced_steps owner).append (.single rfl)).append hvalue
    | _ => exact htarget.append hvalue
  | .importModules _ names => balanced_map (fun _ => rfl) names
  | .importFrom _ source names level => balanced_nameImportSteps level source names
  | .outerNames .. => .nil
  | .branch _ test body orElse =>
    ((balanced_steps test).append (balanced_stepsAll body)).append (balanced_stepsAll orElse)
  | .loop _ _ target iter body orElse =>
    (((balanced_steps target).append (balanced_steps iter)).append (balanced_stepsAll body)).append
      (balanced_stepsAll orElse)
  | .guarded _ _ body handlers orElse final =>
    (((balanced_stepsAll body).append (balanced_stepsAll handlers)).append
      (balanced_stepsAll orElse)).append (balanced_stepsAll final)
  | .within _ _ items body => (balanced_stepsAll items).append (balanced_stepsAll body)
  | .handler _ type name body =>
    ((balanced_stepsOption type).append (balanced_map (fun _ => rfl) name.toList)).append
      (balanced_stepsAll body)
  | .withItem context target => (balanced_steps context).append (balanced_stepsOption target)
  | .matchCase pattern guard body =>
    ((balanced_steps pattern).append (balanced_stepsOption guard)).append (balanced_stepsAll body)
  | .plain _ _ parts => balanced_stepsAll parts

theorem balanced_stepsAll : ∀ ts : List Node, Balanced (stepsAll ts)
  | [] => .nil
  | t :: rest => (balanced_steps t).append (balanced_stepsAll rest)

theorem balanced_stepsOption : ∀ t : Option Node, Balanced (stepsOption t)
  | none => .nil
  | some t => balanced_steps t

theorem balanced_stepsOfDefaults (t : Node) : Balanced (stepsOfDefaults t) := by
  cases t with
  | parameters _ _ _ _ keywordDefaults _ defaults =>
    exact (balanced_stepsAll defaults).append (balanced_stepsAll keywordDefaults)
  | _ => exact .nil

theorem balanced_stepsOfHints (t : Node) : Balanced (stepsOfHints t) := by
  cases t with
  | parameters positionalOnly positional rest keywordOnly _ keywordRest _ =>
    exact ((((balanced_stepsAll positionalOnly).append (balanced_stepsAll positional)).append
      (balanced_stepsAll keywordOnly)).append (balanced_stepsOption rest)).append
      (balanced_stepsOption keywordRest)
  | _ => exact .nil

theorem balanced_stepsOfFirstIter : ∀ ts : List Node, Balanced (stepsOfFirstIter ts)
  | [] => .nil
  | t :: _ => by
    cases t with
    | generator _ iter _ => exact balanced_steps iter
    | _ => exact .nil

theorem balanced_stepsOfGenerators : ∀ (first : Bool) (ts : List Node),
    Balanced (stepsOfGenerators first ts)
  | _, [] => .nil
  | first, t :: rest => by
    have hrest := balanced_stepsOfGenerators false rest
    cases t with
    | generator target iter conditions =>
      have hiter := balanced_steps iter
      have hfirst : Balanced (if first then [] else steps iter) := by
        split
        · exact .nil
        · exact hiter
      exact ((hfirst.append (balanced_steps target)).append (balanced_stepsAll conditions)).append
        hrest
    | _ => exact .nil

end

/-! ### Within one scope -/

/-- Some steps are part of others, in the scope that these begin in. -/
def InScope (xs ys : List Step) : Prop :=
  ∃ before after, xs = before ++ ys ++ after ∧ Balanced before

namespace InScope

variable {xs ys zs : List Step}

theorem refl (xs : List Step) : InScope xs xs := ⟨[], [], by simp, .nil⟩

theorem trans (h : InScope xs ys) (h' : InScope ys zs) : InScope xs zs := by
  obtain ⟨before, after, rfl, hbefore⟩ := h
  obtain ⟨before', after', rfl, hbefore'⟩ := h'
  exact ⟨before ++ before', after' ++ after, by simp, hbefore.append hbefore'⟩

theorem append_right (h : InScope xs zs) (ys : List Step) : InScope (xs ++ ys) zs := by
  obtain ⟨before, after, rfl, hbefore⟩ := h
  exact ⟨before, after ++ ys, by simp, hbefore⟩

theorem append_left (hx : Balanced xs) (h : InScope ys zs) : InScope (xs ++ ys) zs := by
  obtain ⟨before, after, rfl, hbefore⟩ := h
  exact ⟨xs ++ before, after, by simp, hx.append hbefore⟩

end InScope

theorem inScope_stepsAll {ts : List Node} {t : Node} (h : t ∈ ts) :
    InScope (stepsAll ts) (steps t) := by
  obtain ⟨before, after, rfl⟩ := List.append_of_mem h
  induction before with
  | nil => exact (InScope.refl _).append_right _
  | cons u rest ih => exact .append_left (balanced_steps u) (ih (by simp))

theorem inScope_stepsOption {o : Option Node} {t : Node} (h : t ∈ o) :
    InScope (stepsOption o) (steps t) := by
  obtain rfl := h
  exact .refl _

/-- The defaults of parameters. -/
def parameterDefaults : Node → List Node
  | .parameters _ _ _ _ keywordDefaults _ defaults => defaults ++ keywordDefaults
  | _ => []

/-- All parameters, with their hints. -/
def allParameters : Node → List Node
  | .parameters positionalOnly positional rest keywordOnly _ keywordRest _ =>
    positionalOnly ++ positional ++ keywordOnly ++ rest.toList ++ keywordRest.toList
  | _ => []

/-- The parts of a tree that are in the same scope as the tree. -/
def sharedParts : Node → List Node
  | .lambda _ parameters _ => parameterDefaults parameters
  | .comprehension _ _ _ (.generator _ iter _ :: _) => [iter]
  | .comprehension .. => []
  | .classDef _ _ bases keywords _ decorators => decorators ++ bases ++ keywords
  | .functionDef _ _ _ parameters _ decorators returns =>
    decorators ++ parameterDefaults parameters ++ allParameters parameters ++ returns.toList
  | .augAssign _ (.member _ owner _ _) _ value => [owner, value]
  | t => t.parts

theorem inScope_stepsOfDefaults {parameters p : Node} (h : p ∈ parameterDefaults parameters) :
    InScope (stepsOfDefaults parameters) (steps p) := by
  cases parameters with
  | parameters _ _ _ _ keywordDefaults _ defaults =>
    rw [stepsOfDefaults]
    rcases List.mem_append.mp h with h | h
    · exact (inScope_stepsAll h).append_right _
    · exact .append_left (balanced_stepsAll _) (inScope_stepsAll h)
  | _ => cases h

attribute [local grind .] Balanced.append balanced_steps balanced_stepsAll balanced_stepsOption
  balanced_stepsOfDefaults balanced_stepsOfHints InScope.refl InScope.append_right
  InScope.append_left inScope_stepsAll inScope_stepsOption inScope_stepsOfDefaults

theorem inScope_stepsOfHints {parameters p : Node} (h : p ∈ allParameters parameters) :
    InScope (stepsOfHints parameters) (steps p) := by
  cases parameters <;> grind [stepsOfHints, allParameters]

attribute [local grind .] inScope_stepsOfHints

/-- The parts that a tree shares its scope with are come to in that scope. -/
theorem inScope_of_mem_sharedParts {t p : Node} (h : p ∈ sharedParts t) :
    InScope (steps t) (steps p) := by
  cases t with
  | call _ func args keywords =>
    rw [steps]
    refine .append_right ?_ _
    rcases List.mem_cons.mp h with rfl | h
    · exact ((InScope.refl _).append_right _).append_right _
    · rcases List.mem_append.mp h with h | h
      · exact .append_right (.append_left (balanced_steps _) (inScope_stepsAll h)) _
      · exact .append_left ((balanced_steps _).append (balanced_stepsAll _)) (inScope_stepsAll h)
  | comprehension _ _ _ generators =>
    rw [steps]
    match generators, h with
    | .generator _ iter _ :: _, h =>
      obtain rfl := List.mem_singleton.mp h
      exact ((((InScope.refl _).append_right _).append_right _).append_right _).append_right _
  | matchAs _ pattern name =>
    exact .append_left (balanced_map (fun _ => rfl) _)
      (inScope_stepsOption (Option.mem_toList.mp h))
  | matchMapping _ keys patterns rest =>
    have hrest : Balanced (rest.toList.map .bindOther) := balanced_map (fun _ => rfl) _
    rcases List.mem_append.mp h with h | h
    · exact .append_right (.append_left hrest (inScope_stepsAll h)) _
    · exact .append_left (hrest.append (balanced_stepsAll _)) (inScope_stepsAll h)
  | augAssign _ target _ value =>
    have htarget (hp : p ∈ [target, value]) : InScope (steps target ++ steps value) (steps p) := by
      rcases List.mem_cons.mp hp with rfl | hp
      · exact (InScope.refl _).append_right _
      · obtain rfl := List.mem_singleton.mp hp
        exact .append_left (balanced_steps _) (.refl _)
    cases target with
    | member _ owner _ _ =>
      rcases List.mem_cons.mp h with rfl | h
      · exact ((InScope.refl _).append_right _).append_right _
      · obtain rfl := List.mem_singleton.mp h
        exact .append_left ((balanced_steps _).append (.single rfl)) (.refl _)
    | _ => exact htarget h
  | handler _ type name body =>
    have hname : Balanced (name.toList.map fun id => .caught id (type.map Designator.ofNode)) :=
      balanced_map (fun _ => rfl) _
    rcases List.mem_append.mp h with h | h
    · exact ((inScope_stepsOption (Option.mem_toList.mp h)).append_right _).append_right _
    · exact .append_left ((balanced_stepsOption _).append hname) (inScope_stepsAll h)
  | _ =>
    simp only [sharedParts, Node.parts] at h
    grind [steps]

/-! ### Declared classes -/

mutual

theorem inScope_of_mem_innerStatements : ∀ (t : Node), ∀ s ∈ innerStatements t,
    InScope (steps t) (steps s)
  | .branch _ test body orElse, s, h => by
    rw [innerStatements, List.mem_append] at h
    rw [steps]
    rcases h with h | h
    · exact ((inScope_of_mem_moduleStatements body s h).append_left
        (balanced_steps test)).append_right _
    · exact (inScope_of_mem_moduleStatements orElse s h).append_left
        ((balanced_steps test).append (balanced_stepsAll body))
  | .guarded _ _ body handlers orElse final, s, h => by
    have hbody := balanced_stepsAll body
    have hhandlers := hbody.append (balanced_stepsAll handlers)
    rw [innerStatements, List.mem_append, List.mem_append, List.mem_append] at h
    rw [steps]
    rcases h with ((h | h) | h) | h
    · exact (((inScope_of_mem_moduleStatements body s h).append_right _).append_right
        _).append_right _
    · exact ((inScope_of_mem_moduleStatements orElse s h).append_left hhandlers).append_right _
    · exact (inScope_of_mem_moduleStatements final s h).append_left
        (hhandlers.append (balanced_stepsAll orElse))
    · exact (((inScope_of_mem_handlerStatements handlers s h).append_left hbody).append_right
        _).append_right _
  | .within _ _ items body, s, h =>
    (inScope_of_mem_moduleStatements body s h).append_left (balanced_stepsAll items)
  | .handler _ type name body, s, h =>
    (inScope_of_mem_moduleStatements body s h).append_left
      ((balanced_stepsOption type).append (balanced_map (fun _ => rfl) name.toList))

/-- The statements of a level are come to in its scope. -/
theorem inScope_of_mem_moduleStatements : ∀ (ts : List Node), ∀ s ∈ moduleStatements ts,
    InScope (stepsAll ts) (steps s)
  | [], _, h => nomatch h
  | t :: rest, s, h => by
    rw [moduleStatements, List.mem_cons, List.mem_append] at h
    rw [stepsAll]
    rcases h with rfl | h | h
    · exact (InScope.refl _).append_right _
    · exact (inScope_of_mem_innerStatements t s h).append_right _
    · exact (inScope_of_mem_moduleStatements rest s h).append_left (balanced_steps t)

theorem inScope_of_mem_handlerStatements : ∀ (ts : List Node), ∀ s ∈ handlerStatements ts,
    InScope (stepsAll ts) (steps s)
  | [], _, h => nomatch h
  | t :: rest, s, h => by
    rw [handlerStatements, List.mem_append] at h
    rw [stepsAll]
    rcases h with h | h
    · exact (inScope_of_mem_innerStatements t s h).append_right _
    · exact (inScope_of_mem_handlerStatements rest s h).append_left (balanced_steps t)

end

/-- Steps after which no scopes are open but those of class bodies. -/
inductive OnlyClasses : List Step → Prop where
  | balanced {xs : List Step} (h : Balanced xs) : OnlyClasses xs
  | openClass (name : String) (position : Position) : OnlyClasses [.openClass name position]
  | append {xs ys : List Step} (hx : OnlyClasses xs) (hy : OnlyClasses ys) :
      OnlyClasses (xs ++ ys)

/-- Steps that open the body of a class within no function. -/
def OpensOutside (xs : List Step) (position : Position) : Prop :=
  ∃ before name after, xs = before ++ .openClass name position :: after ∧ OnlyClasses before

theorem InScope.opensOutside {xs ys : List Step} {position : Position} (h : InScope xs ys)
    (hy : OpensOutside ys position) : OpensOutside xs position := by
  obtain ⟨before, after, rfl, hbefore⟩ := h
  obtain ⟨before', name, after', rfl, hbefore'⟩ := hy
  exact ⟨before ++ before', name, after' ++ after, by simp,
    (OnlyClasses.balanced hbefore).append hbefore'⟩

theorem opensOutside_of_extractClass {m : SourceModule} {container : Option String} {t : Node}
    {x : Extracted} (hx : extractClass m container t = some x) :
    ∀ d ∈ x.all, OpensOutside (steps t) d.position := by
  refine extractClass_induction ?_ t container x hx
  intro container p name bases keywords body decorators hbody d hd
  have hbefore := ((balanced_stepsAll decorators).append (balanced_stepsAll bases)).append
    (balanced_stepsAll keywords)
  rcases List.mem_append.mp hd with hd | hd
  · obtain ⟨y, hy, hd⟩ := List.mem_flatMap.mp hd
    obtain ⟨s, hs, hy⟩ := mem_extractClasses.mp hy
    obtain ⟨before, name', after, hwithin, hclasses⟩ :=
      (inScope_stepsAll hs).opensOutside (hbody s hs y hy d hd)
    refine ⟨_, name', after ++ [.closeClass], ?_, ((OnlyClasses.balanced hbefore).append
      (.openClass name ⟨p.line, p.column⟩)).append hclasses⟩
    rw [steps, hwithin]
    simp
  · obtain rfl := List.mem_singleton.mp hd
    refine ⟨_, name, stepsAll body ++ [.closeClass], ?_, .balanced hbefore⟩
    rw [steps]
    simp

/-- Declared classes stand within no function. -/
theorem opensOutside_of_mem_classes {m : SourceModule} {d : ClassDecl}
    (hd : d ∈ (extractModule m).classes) : OpensOutside (stepsAll m.body) d.position := by
  obtain ⟨x, hx, hd⟩ := List.mem_flatMap.mp hd
  obtain ⟨t, ht, hx⟩ := List.mem_filterMap.mp hx
  exact (inScope_of_mem_moduleStatements m.body t ht).opensOutside
    (opensOutside_of_extractClass hx d hd)

end Concordance.Binding
