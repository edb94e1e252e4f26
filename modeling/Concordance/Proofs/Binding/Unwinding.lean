import Concordance.Proofs.Binding.Scoping

/-!
# What a visit leaves of the scopes

A visit of a tree may fail on its way, when work in the middle of it fails. Then the scopes are
closed that have been opened since it began, and so are those of a visit that comes to its end. Only
the scope that is innermost when a visit begins may be another one after it, by the names that have
been bound in it. Where none is open no name is bound at all.

A function, a class, a lambda expression and a comprehension each have a scope of their own. What is
bound in it is gone when it is closed. So what their parts around it leave is what they leave
themselves, with the name of a function or class bound.

## Main definitions

* `Walk.unwindTo`: the scopes closed that have been opened since
* `SameFrame`: how a walk may differ from the one that a visit began with
* `KeepsFrame`: what steps do to the scopes, whether they come to their end or not
* `Scoped`, `scopedOf?`: trees with a scope of their own

## Main results

* `Balanced.within`: how far balanced steps may have come
* `yields_body`: what is left of a scope that a tree has of its own
* `keepsFrame_visit`: the visit of any tree
-/

namespace Concordance.Binding

open Syntax

/-! ### Before the end -/

/-- Some scopes and classes have been entered since a walk, and those around them are as they were,
but for some names of the one that was innermost. -/
structure Within (names : List String) (w v : Walk) : Prop where
  scopes : ∃ opened u, v.scopes = opened ++ u.scopes ∧ Leaves names w u
  classes : ∃ entered, v.classes = entered ++ w.classes

section

variable {names more : List String} {u v w : Walk}

theorem Leaves.within (h : Leaves names w v) : Within names w v :=
  ⟨⟨[], v, rfl, h⟩, ⟨[], h.classes⟩⟩

theorem Within.mono (h : Within names w v) (hnames : names ⊆ more) : Within more w v := by
  obtain ⟨opened, u, hscopes, hu⟩ := h.scopes
  exact ⟨⟨opened, u, hscopes, hu.mono hnames⟩, h.classes⟩

theorem Leaves.trans_within (h : Leaves names w u) (h' : Within more u v) :
    Within (names ++ more) w v := by
  obtain ⟨opened, u', hscopes, hu⟩ := h'.scopes
  obtain ⟨entered, hentered⟩ := h'.classes
  exact ⟨⟨opened, u', hscopes, h.trans hu⟩, ⟨entered, by rw [hentered, h.classes]⟩⟩

end

section

variable {c : Codebase} {q : Questions} {m : Nat}

/-- Within the body that a step has opened, only its own names are bound around it. -/
theorem Opened.within {o : Step} (ho : o.shift = .opens) {names : List String} {w w' v : Walk}
    (h : Opened c m o w w') (hv : Within names w' v) : Within o.bound w v := by
  obtain ⟨opened, u, hscopes, hu⟩ := hv.scopes
  obtain ⟨entered, hentered⟩ := hv.classes
  obtain ⟨s, hs⟩ := h.scopes
  obtain ⟨around, haround⟩ := h.classes
  obtain ⟨s', hs'⟩ : ∃ s', u.scopes = s' :: (introduce c m o w).scopes := by
    obtain ⟨s', rest, hrest⟩ := List.exists_cons_of_ne_nil (hu.scopes_ne_nil (by simp [hs]))
    have htail := hu.tail
    rw [hrest, hs, List.tail_cons, List.tail_cons] at htail
    exact ⟨s', htail ▸ hrest⟩
  refine ⟨⟨opened ++ [s'], introduce c m o w, ?_, leaves_introduce w ho⟩,
    ⟨entered ++ around, ?_⟩⟩
  · rw [hscopes, hs']
    simp
  · rw [hentered, haround]
    simp

/-- Wherever a walk by balanced steps has come to, it is in scopes that it has opened, or in the one
that it began in, in which it has bound names of the steps it has taken. -/
theorem Balanced.within {xs : List Step} (h : Balanced xs) {before after : List Step}
    (hxs : xs = before ++ after) (w : Walk) :
    Yields (before.foldlM (perform c q m) w) (Within (boundAt 0 before) w) := by
  have hnil (w : Walk) : Yields (([] : List Step).foldlM (perform c q m) w) (Within [] w) :=
    yields_pure (Leaves.of_eq rfl rfl).within
  induction h generalizing before after w with
  | nil =>
    obtain ⟨rfl, -⟩ := List.append_eq_nil_iff.mp hxs.symm
    exact hnil w
  | @single s hs =>
    rcases before with _ | ⟨first, rest⟩
    · exact hnil w
    · obtain ⟨rfl, hrest⟩ := List.cons_eq_cons.mp hxs
      obtain ⟨rfl, -⟩ := List.append_eq_nil_iff.mp hrest.symm
      intro s' v s'' hv
      exact ((Balanced.single hs).leaves w s' v s'' hv).within
  | @scope o inner ho hinner ih =>
    have hbody {rest after : List Step} (hinner : inner = rest ++ after) :
        Yields ((o :: rest).foldlM (perform c q m) w) (Within (boundAt 0 (o :: rest)) w) := by
      rw [List.foldlM_cons]
      refine (yields_opened w ho).bind fun w' hw' => ?_
      intro s v s' hv
      refine (hw'.within ho (ih hinner w' s v s' hv)).mono ?_
      exact List.subset_append_left _ _
    rcases before with _ | ⟨first, rest⟩
    · exact hnil w
    obtain ⟨rfl, hrest⟩ := List.cons_eq_cons.mp hxs
    rcases List.append_eq_append_iff.mp hrest with ⟨more, rfl, hclosing⟩ | ⟨more, hrest, -⟩
    · rcases more with _ | ⟨closing, more⟩
      · exact hbody (show inner = (inner ++ []) ++ [] by simp)
      · obtain ⟨rfl, hmore⟩ := List.cons_eq_cons.mp hclosing
        obtain ⟨rfl, -⟩ := List.append_eq_nil_iff.mp hmore.symm
        intro s v s' hv
        exact ((Balanced.scope ho hinner).leaves w s v s' hv).within
    · exact hbody hrest
  | @append xs ys hx hy ihx ihy =>
    rcases List.append_eq_append_iff.mp hxs with ⟨more, rfl, hys⟩ | ⟨more, hxs', -⟩
    · rw [List.foldlM_append, hx.boundAt_append]
      refine (hx.leaves w).bind fun u hu => ?_
      intro s v s' hv
      exact hu.trans_within (ihy hys u s v s' hv)
    · exact ihx hxs' w

end

/-! ### After a visit -/

/-- A walk with the scopes and classes left that have been entered since another one: those that are
more than there were. -/
def Walk.unwindTo (w v : Walk) : Walk :=
  { v with
    scopes := v.scopes.drop (v.scopes.length - w.scopes.length)
    classes := v.classes.drop (v.classes.length - w.classes.length) }

/-- A walk differs from another one only by references and by what is bound in the innermost scope.
Where no scope is open it differs by references only. -/
structure SameFrame (w v : Walk) : Prop where
  depth : v.scopes.length = w.scopes.length
  kinds : v.scopes.map Scope.kind = w.scopes.map Scope.kind
  classes : v.classes = w.classes
  outer : v.scopes.tail = w.scopes.tail
  unbound : w.scopes = [] → v = { w with found := v.found }

theorem Leaves.sameFrame {names : List String} {w v : Walk} (h : Leaves names w v) :
    SameFrame w v where
  depth := by simpa using congrArg List.length h.kinds
  kinds := h.kinds
  classes := h.classes
  outer := h.tail
  unbound hw := by
    have hv : v.scopes = [] := by simpa [hw] using h.kinds
    obtain ⟨scopes, classes, found⟩ := v
    obtain rfl : classes = w.classes := h.classes
    obtain rfl : scopes = [] := hv
    rw [hw]

theorem Within.sameFrame {names : List String} {w v : Walk} (h : Within names w v) :
    SameFrame w (w.unwindTo v) := by
  obtain ⟨opened, u, hscopes, hu⟩ := h.scopes
  obtain ⟨entered, hentered⟩ := h.classes
  have hscopes' : (w.unwindTo v).scopes = u.scopes := by
    have hdepth := hu.sameFrame.depth
    simp [Walk.unwindTo, hscopes, hdepth]
  have hclasses : (w.unwindTo v).classes = u.classes := by
    simp [Walk.unwindTo, hentered, hu.classes]
  have hu' : Leaves [] u (w.unwindTo v) := .of_eq hscopes' hclasses
  exact (hu.trans hu').sameFrame

/-- What steps do to the scopes of a walk: when they come to their end, and when work fails in front
of any of them or within it, so that the scopes are closed that have been opened. -/
structure KeepsFrame (c : Codebase) (q : Questions) (m : Nat) (xs : List Step) (w : Walk) :
    Prop where
  ended : Yields (xs.foldlM (perform c q m) w) (SameFrame w)
  broken : ∀ before after, xs = before ++ after →
    Yields (before.foldlM (perform c q m) w) fun v => SameFrame w (w.unwindTo v)

theorem Balanced.keepsFrame {c : Codebase} {q : Questions} {m : Nat} {xs : List Step}
    (h : Balanced xs) (w : Walk) : KeepsFrame c q m xs w where
  ended s v s' hv := (h.leaves w s v s' hv).sameFrame
  broken _ _ hxs s v s' hv := (h.within hxs w s v s' hv).sameFrame

/-! ### Trees with a scope of their own -/

/-- The steps of a tree with a scope of its own: those around the scope, the one that opens it, and
those within it. -/
structure Scoped where
  around : List Step
  opening : Step
  inner : List Step

/-- From the step that opens the scope to the one that closes it. -/
def Scoped.body (d : Scoped) : List Step := d.opening :: d.inner ++ [d.opening.closing]

/-- The trees with a scope of their own: functions, classes, lambda expressions and
comprehensions. -/
def scopedOf? : Node → Option Scoped
  | .lambda _ parameters body =>
    some ⟨stepsOfDefaults parameters, .openScope (parameterNames parameters), steps body⟩
  | .comprehension _ _ elements generators =>
    some ⟨stepsOfFirstIter generators, .openScope [],
      stepsOfGenerators true generators ++ stepsAll elements⟩
  | .classDef p name bases keywords body decorators =>
    some ⟨stepsAll decorators ++ stepsAll bases ++ stepsAll keywords,
      .openClass name ⟨p.line, p.column⟩, stepsAll body⟩
  | .functionDef _ _ name parameters body decorators returns =>
    some ⟨stepsAll decorators ++ stepsOfDefaults parameters ++ stepsOfHints parameters ++
      stepsOption returns, .openFunction name (signature name parameters decorators),
      stepsAll body⟩
  | _ => none

theorem steps_eq_of_scopedOf? {n : Node} {d : Scoped} (h : scopedOf? n = some d) :
    steps n = d.around ++ d.body := by
  cases n with
  | lambda | comprehension | classDef | functionDef =>
    obtain rfl := Option.some.inj h
    simp [steps, Scoped.body, Step.closing]
  | _ => cases h

/-- The scope of a tree is opened, and what is done in it is balanced. -/
theorem opens_of_scopedOf? {n : Node} {d : Scoped} (h : scopedOf? n = some d) :
    d.opening.shift = .opens ∧ Balanced d.inner := by
  cases n with
  | lambda _ parameters body =>
    obtain rfl := Option.some.inj h
    exact ⟨rfl, balanced_steps body⟩
  | comprehension _ _ elements generators =>
    obtain rfl := Option.some.inj h
    exact ⟨rfl, (balanced_stepsOfGenerators true generators).append (balanced_stepsAll elements)⟩
  | classDef _ _ _ _ body =>
    obtain rfl := Option.some.inj h
    exact ⟨rfl, balanced_stepsAll body⟩
  | functionDef _ _ _ _ body =>
    obtain rfl := Option.some.inj h
    exact ⟨rfl, balanced_stepsAll body⟩
  | _ => cases h

section

variable (c : Codebase) (q : Questions) (m : Nat)

/-- What has been bound in the scope of a tree is gone when it is closed. -/
theorem yields_body {n : Node} {d : Scoped} (h : scopedOf? n = some d) (u : Walk) :
    Yields (d.body.foldlM (perform c q m) u) fun v =>
      v.scopes = (introduce c m d.opening u).scopes ∧ v.classes = u.classes := by
  obtain ⟨hopens, hinner⟩ := opens_of_scopedOf? h
  rw [Scoped.body, List.cons_append, List.foldlM_cons]
  refine (yields_opened u hopens).bind fun u' hu' => ?_
  rw [List.foldlM_append]
  refine (hinner.leaves u').bind fun v hv => ?_
  have hclosing : [d.opening.closing].foldlM (perform c q m) v = pure (d.opening.close v) := by
    simp [perform_closing]
  rw [hclosing]
  exact yields_pure (hu'.close hv)

/-- **A visit only touches the innermost scope**, whatever is visited and wherever the walk stands.
As many scopes are open after it as before, of the same kinds, and the same classes are around; all
scopes but the innermost are as they were; where none is open, nothing is bound. That is so too when
the visit fails, once the scopes are closed that it has opened. And when a tree with a scope of its
own has been visited, the scopes are those from before it was opened, in which nothing more is bound
than the name of a function or a class. -/
theorem keepsFrame_visit (w : Walk) :
    (∀ nodes, KeepsFrame c q m (stepsAll nodes) w) ∧
      ∀ n, KeepsFrame c q m (steps n) w ∧
        ∀ d ∈ scopedOf? n, steps n = d.around ++ d.body ∧
          ∀ u, Yields (d.body.foldlM (perform c q m) u) fun v =>
            v.scopes = (introduce c m d.opening u).scopes ∧ v.classes = u.classes :=
  ⟨fun nodes => (balanced_stepsAll nodes).keepsFrame w, fun n =>
    ⟨(balanced_steps n).keepsFrame w, fun _ hd =>
      ⟨steps_eq_of_scopedOf? hd, yields_body c q m hd⟩⟩⟩

end

/-- The name that a function binds within it is gone after it, and its own name is there. -/
theorem keepsFrame_visit_function :
    let f : Node := .functionDef default false "f" (.parameters [] [] none [] [] none [])
      [.assign default [.name default "x" .store] (.constant default .none)] [] none
    let c := Codebase.ofModules []
    Yields ((steps f).foldlM (perform c c.ask 0) { scopes := [⟨.function, []⟩] }) fun v =>
      v.scopes = [⟨.function, [("f", .other)]⟩] := by
  intro f c
  obtain ⟨-, hscoped⟩ := (keepsFrame_visit c c.ask 0 {}).2 f
  obtain ⟨hsteps, hbody⟩ := hscoped _ rfl
  rw [hsteps]
  exact fun s v s' hv => (hbody _ s v s' hv).1

end Concordance.Binding
