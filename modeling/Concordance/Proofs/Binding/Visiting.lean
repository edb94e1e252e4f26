import Concordance.Proofs.Binding.Lookups

/-!
# Every name is visited once

A walk goes through a tree in an order of its own: values come before the targets they are assigned
to, decorators, defaults and hints before the function they belong to, and what a comprehension
first goes through before its scope. Some forms of nodes are taken apart by hand for that, so that a
part could be forgotten or come twice. None is: the parts that are visited are the parts of the node
in another order, up to nodes that only hold parameters and clauses together, which are passed over.
For this the parts have to be of the kinds that they should be, as they are in a module that is
read.

So the names, members and calls of a module are visited once each, unless the walk ends before: it
does when the text of a hint holds the null character or half of a surrogate pair.

## Main definitions

* `Met`, `metAt?`: what a walk is told of a name, a member or a call
* `visitedParts`, `visits`: the order of visits
* `occurrences`, `visitOrder`: the names, members and calls of some trees, level by level and as
  they are visited
* `taken`, `visited`: the steps that a walk has taken when it ends, and what it has visited then

## Main results

* `filterMap_met?_stepsAll`: the order of visits is that of the steps
* `flatMap_visitedParts_perm`, `visitOrder_perm`: in it each name, member and call stands once
* `visited_of_references`: what a walk through a module visits
-/

namespace Concordance.Binding

open Syntax

/-! ### What is met -/

/-- What a walk is told of a name, a member or a call when it is visited. -/
inductive Met where
  | name (line : Nat) (id : String) (use : Use)
  | member (position : Position) (line : Nat) (value : Designator) (attr : String) (use : Use)
  | call (line : Nat) (callee : Designator)
deriving DecidableEq

/-- The visit that a step is made for, if it is that of a name, a member or a call. -/
def Step.met? : Step → Option Met
  | .name line id use => some (.name line id use)
  | .member position line value attr use _ => some (.member position line value attr use)
  | .call line callee => some (.call line callee)
  | _ => none

/-- What a walk is told of a node, if it is a name, a member or a call. -/
def metAt? : Node → Option Met
  | .name p id use => some (.name p.line id use)
  | .member p value attr use =>
    some (.member ⟨p.line, p.column⟩ p.lastLine (.ofNode value) attr use)
  | .call _ callee _ _ => some (.call callee.place.lastLine (.ofNode callee))
  | _ => none

/-- Whether a node is a name, a member or a call. -/
def isMet (n : Node) : Bool := (metAt? n).isSome

/-- The names, members and calls in some trees. -/
def occurrences (nodes : List Node) : List Node := (Node.breadthFirstAll nodes).filter isMet

/-! ### The order of visits -/

/-- What a comprehension first goes through. -/
def firstIter : List Node → List Node
  | .generator _ iter _ :: _ => [iter]
  | _ => []

/-- The parts of clauses, without what the first one goes through if that has been visited. -/
def clauseParts (first : Bool) : List Node → List Node
  | .generator target iter conditions :: rest =>
    (if first then [] else [iter]) ++ target :: conditions ++ clauseParts false rest
  | _ => []

/-- The nodes that are visited from a node, in order. -/
def visitedParts : Node → List Node
  | .named _ target value => [value, target]
  | .lambda _ parameters body => parameterDefaults parameters ++ [body]
  | .comprehension _ _ elements generators =>
    firstIter generators ++ clauseParts true generators ++ elements
  | .classDef _ _ bases keywords body decorators => decorators ++ bases ++ keywords ++ body
  | .functionDef _ _ _ parameters body decorators returns =>
    decorators ++ parameterDefaults parameters ++ allParameters parameters ++ returns.toList ++ body
  | .assign _ targets value => value :: targets
  | .annAssign _ target hint value => hint :: value.toList ++ [target]
  | n => n.parts

theorem exists_of_mem_clauseParts {first : Bool} {generators : List Node} {p : Node}
    (h : p ∈ clauseParts first generators) : ∃ g ∈ generators, p ∈ g.parts := by
  induction generators generalizing first with
  | nil => cases h
  | cons g rest ih =>
    cases g with
    | generator target iter conditions =>
      rw [clauseParts, List.mem_append] at h
      rcases h with h | h
      · refine ⟨_, List.mem_cons_self, ?_⟩
        cases first <;> simp at h <;> simp [Node.parts] <;> tauto
      · obtain ⟨g, hg, hp⟩ := ih h
        exact ⟨g, List.mem_cons_of_mem _ hg, hp⟩
    | _ => cases h

/-- What is visited from a node is a part of it, or of one of its parts. -/
theorem exists_of_mem_visitedParts {n p : Node} (h : p ∈ visitedParts n) :
    p ∈ n.parts ∨ ∃ q ∈ n.parts, p ∈ q.parts := by
  have hparameters {ps : Node} (hp : p ∈ parameterDefaults ps ∨ p ∈ allParameters ps) :
      p ∈ ps.parts := by
    cases ps with
    | parameters => simp [parameterDefaults, allParameters] at hp; simp [Node.parts]; tauto
    | _ => simp [parameterDefaults, allParameters] at hp
  cases n with
  | lambda _ ps body =>
    rcases List.mem_append.mp h with h | h
    · exact .inr ⟨ps, List.mem_cons_self, hparameters (.inl h)⟩
    · exact .inl (List.mem_cons_of_mem _ h)
  | comprehension _ _ elements generators =>
    rcases List.mem_append.mp h with h | h
    · rcases List.mem_append.mp h with h | h
      · rcases generators with _ | ⟨g, rest⟩
        · cases h
        · cases g with
          | generator target iter conditions =>
            obtain rfl := List.mem_singleton.mp h
            exact .inr ⟨.generator target p conditions, by simp [Node.parts], by simp [Node.parts]⟩
          | _ => cases h
      · obtain ⟨g, hg, hp⟩ := exists_of_mem_clauseParts h
        exact .inr ⟨g, List.mem_append_right _ hg, hp⟩
    · exact .inl (List.mem_append_left _ h)
  | functionDef _ _ _ ps body decorators returns =>
    simp only [visitedParts, List.mem_append] at h
    rcases h with (((h | h) | h) | h) | h
    · exact .inl (by simp [Node.parts, h])
    · exact .inr ⟨ps, List.mem_cons_self, hparameters (.inl h)⟩
    · exact .inr ⟨ps, List.mem_cons_self, hparameters (.inr h)⟩
    · exact .inl (by simp_all [Node.parts])
    · exact .inl (by simp [Node.parts, h])
  | named | classDef | assign | annAssign =>
    left
    simp [visitedParts] at h
    simp [Node.parts]
    tauto
  | _ => exact .inl h

theorem height_lt_of_mem_visitedParts {n p : Node} (h : p ∈ visitedParts n) :
    p.height < n.height := by
  rcases exists_of_mem_visitedParts h with h | ⟨q, hq, hp⟩
  · exact Node.height_lt_of_mem_parts h
  · exact (Node.height_lt_of_mem_parts hp).trans (Node.height_lt_of_mem_parts hq)

/-- The nodes of a tree in the order in which they are visited: each after those that are visited
from it. -/
def visits (n : Node) : List Node :=
  ((visitedParts n).attach.flatMap fun p => visits p.1) ++ [n]
termination_by n.height
decreasing_by exact height_lt_of_mem_visitedParts p.2

theorem visits_eq (n : Node) : visits n = (visitedParts n).flatMap visits ++ [n] := by
  rw [visits, ← List.flatMap_map Subtype.val visits, List.attach_map_subtype_val]

/-- The names, members and calls of some trees in the order in which they are visited. -/
def visitOrder (nodes : List Node) : List Node :=
  (nodes.flatMap visits).filter isMet

/-! ### Steps and visits -/

theorem stepsAll_eq (nodes : List Node) : stepsAll nodes = nodes.flatMap steps := by
  induction nodes with
  | nil => rw [stepsAll, List.flatMap_nil]
  | cons n rest ih => rw [stepsAll, ih, List.flatMap_cons]

theorem stepsOption_eq (o : Option Node) : stepsOption o = o.toList.flatMap steps := by
  cases o <;> simp [stepsOption]

theorem stepsOfDefaults_eq (ps : Node) :
    stepsOfDefaults ps = (parameterDefaults ps).flatMap steps := by
  cases ps <;> simp [stepsOfDefaults, parameterDefaults, stepsAll_eq]

theorem stepsOfHints_eq (ps : Node) : stepsOfHints ps = (allParameters ps).flatMap steps := by
  cases ps <;> simp [stepsOfHints, allParameters, stepsAll_eq, stepsOption_eq]

theorem stepsOfFirstIter_eq (generators : List Node) :
    stepsOfFirstIter generators = (firstIter generators).flatMap steps := by
  rcases generators with _ | ⟨g, rest⟩
  · rfl
  · cases g <;> simp [stepsOfFirstIter, firstIter]

theorem stepsOfGenerators_eq (first : Bool) (generators : List Node) :
    stepsOfGenerators first generators = (clauseParts first generators).flatMap steps := by
  induction generators generalizing first with
  | nil => rfl
  | cons g rest ih =>
    cases g with
    | generator target iter conditions =>
      cases first <;> simp [stepsOfGenerators, clauseParts, stepsAll_eq, ih]
    | _ => rfl

/-- The steps of a tree are made for the visits of its parts, and for its own if it is a name, a
member or a call. -/
theorem filterMap_met?_steps (n : Node) :
    (steps n).filterMap Step.met? =
      (visitedParts n).flatMap (fun p => (steps p).filterMap Step.met?) ++ (metAt? n).toList := by
  have himports (level : Nat) (source : Option String) (names : List Alias) :
      (names.filterMap (nameImportStep? level source)).filterMap Step.met? = [] := by
    refine List.filterMap_eq_nil_iff.mpr fun x hx => ?_
    obtain ⟨a, -, ha⟩ := List.mem_filterMap.mp hx
    rw [nameImportStep?] at ha
    split at ha
    · cases ha
    · cases ha
      rfl
  cases n with
  | augAssign p target op value =>
    have htarget : (steps (.augAssign p target op value)).filterMap Step.met? =
        (steps target).filterMap Step.met? ++ (steps value).filterMap Step.met? := by
      cases target with
      | member => simp [steps, Step.met?]
      | _ => exact List.filterMap_append ..
    simp [htarget, visitedParts, Node.parts, metAt?]
  | importModules =>
    simp [steps, visitedParts, Node.parts, metAt?, moduleImportStep, Step.met?]
  | _ => simp [steps, visitedParts, Node.parts, metAt?, Step.met?, stepsAll_eq, stepsOption_eq,
      stepsOfDefaults_eq, stepsOfHints_eq, stepsOfFirstIter_eq, stepsOfGenerators_eq,
      List.filterMap_flatMap, List.filterMap_cons, himports]

/-- Steps are made for visits in the order of these. -/
theorem filterMap_met?_steps_eq (n : Node) :
    (steps n).filterMap Step.met? = (visits n).filterMap metAt? := by
  induction h : n.height using Nat.strongRecOn generalizing n with
  | ind k ih =>
    subst h
    rw [filterMap_met?_steps, visits_eq, List.filterMap_append, List.filterMap_flatMap]
    congr 1
    exact List.flatMap_congr fun p hp => ih _ (height_lt_of_mem_visitedParts hp) p rfl

/-- The steps of some trees are made for the visits in them. -/
theorem filterMap_met?_stepsAll (nodes : List Node) :
    (stepsAll nodes).filterMap Step.met? = (visitOrder nodes).filterMap metAt? := by
  have hmet (n : Node) : (if isMet n then metAt? n else none) = metAt? n := by
    rw [isMet]
    cases metAt? n <;> rfl
  rw [stepsAll_eq, List.filterMap_flatMap, visitOrder, List.filterMap_filter,
    List.filterMap_flatMap]
  simp only [hmet, filterMap_met?_steps_eq]

/-! ### Each of them once -/

/-- The names, members and calls in a tree. -/
def occurrencesIn (n : Node) : List Node := n.breadthFirst.filter isMet

/-- Those in a tree are those in its parts, and the tree itself if it is one. -/
theorem occurrencesIn_perm (n : Node) :
    (occurrencesIn n).Perm (n.parts.flatMap occurrencesIn ++ [n].filter isMet) := by
  refine (n.breadthFirst_perm.filter isMet).trans ?_
  rw [← List.singleton_append, List.filter_append, List.filter_flatMap]
  exact List.perm_append_comm

theorem occurrences_perm (nodes : List Node) :
    (occurrences nodes).Perm (nodes.flatMap occurrencesIn) := by
  have h := (Node.breadthFirstAll_perm nodes).filter isMet
  rwa [List.filter_flatMap] at h

/-- What only holds others together is not met itself. -/
theorem occurrencesIn_perm_parts {n : Node} (h : metAt? n = none) :
    (occurrencesIn n).Perm (n.parts.flatMap occurrencesIn) := by
  simpa [isMet, h] using occurrencesIn_perm n

theorem occurrencesIn_parameters {ps : Node} {hinted : Bool} (h : ps.isParameters hinted) :
    (occurrencesIn ps).Perm ((parameterDefaults ps ++ allParameters ps).flatMap occurrencesIn) := by
  cases ps with
  | parameters =>
    refine (occurrencesIn_perm_parts rfl).trans (List.Perm.flatMap_right _ ?_)
    classical
    refine List.perm_iff_count.mpr fun a => ?_
    simp only [Node.parts, parameterDefaults, allParameters, List.count_append]
    omega
  | _ => cases h

/-- Nothing is met in parameters without hints. -/
theorem flatMap_occurrencesIn_allParameters {ps : Node} (h : ps.isParameters false) :
    (allParameters ps).flatMap occurrencesIn = [] := by
  refine List.flatMap_eq_nil_iff.mpr fun p hp => ?_
  have hparameter : p.isParameter false := by
    cases ps with
    | parameters =>
      simp only [allParameters, List.mem_append, Option.mem_toList] at hp
      simp only [Node.isParameters, Bool.and_eq_true, List.all_eq_true, Option.all_eq_true] at h
      tauto
    | _ => cases h
  cases p with
  | parameter _ _ hint =>
    obtain rfl : hint = none := by simpa [Node.isParameter] using hparameter
    exact (occurrencesIn_perm_parts rfl).eq_nil
  | _ => cases hparameter

theorem firstIter_append_clauseParts (generators : List Node) :
    firstIter generators ++ clauseParts true generators = clauseParts false generators := by
  rcases generators with _ | ⟨g, rest⟩
  · rfl
  · cases g <;> rfl

theorem occurrencesIn_clauses {generators : List Node} (h : generators.all Node.isGenerator) :
    ((clauseParts false generators).flatMap occurrencesIn).Perm
      (generators.flatMap occurrencesIn) := by
  induction generators with
  | nil => exact .refl _
  | cons g rest ih =>
    rw [List.all_cons, Bool.and_eq_true] at h
    cases g with
    | generator target iter conditions =>
      have hparts : (iter :: target :: conditions).Perm (target :: iter :: conditions) :=
        .swap target iter conditions
      rw [clauseParts, List.flatMap_append, List.flatMap_cons]
      refine .append (.trans ?_ (occurrencesIn_perm_parts rfl).symm) (ih h.2)
      exact List.Perm.flatMap_right _ hparts
    | _ => cases h.1

/-- **Nothing is forgotten and nothing comes twice** in the order of visits of a formed node. -/
theorem flatMap_visitedParts_perm {n : Node} (h : n.isFormed) :
    ((visitedParts n).flatMap occurrencesIn).Perm (n.parts.flatMap occurrencesIn) := by
  cases n with
  | lambda _ ps body =>
    have hps := occurrencesIn_parameters h
    rw [List.flatMap_append, flatMap_occurrencesIn_allParameters h, List.append_nil] at hps
    simpa [visitedParts, Node.parts] using hps.symm.append_right (occurrencesIn body)
  | comprehension _ _ elements generators =>
    obtain ⟨-, hgenerators⟩ := Bool.and_eq_true_iff.mp h
    rw [visitedParts, Node.parts, firstIter_append_clauseParts, List.flatMap_append,
      List.flatMap_append]
    exact ((occurrencesIn_clauses hgenerators).append_right _).trans List.perm_append_comm
  | functionDef _ _ _ ps body decorators returns =>
    have hps := occurrencesIn_parameters h
    classical
    refine List.perm_iff_count.mpr fun a => ?_
    have hcount := hps.count_eq a
    simp only [Node.parts, visitedParts, List.flatMap_append, List.flatMap_cons,
      List.count_append] at hcount ⊢
    omega
  | named | classDef | assign | annAssign =>
    refine List.Perm.flatMap_right _ ?_
    classical
    refine List.perm_iff_count.mpr fun a => ?_
    simp only [Node.parts, visitedParts, List.count_append, List.count_cons, List.count_nil]
    omega
  | _ => exact .refl _

theorem written_of_mem_visitedParts {T : List Syntax.Token} {n p : Node} (h : n.Written T)
    (hp : p ∈ visitedParts n) : p.Written T := by
  rcases exists_of_mem_visitedParts hp with hp | ⟨q, hq, hp⟩
  · exact h.of_mem hp
  · exact (h.of_mem hq).of_mem hp

/-- In a tree that is read each name, member and call is visited once. -/
theorem filter_visits_perm {T : List Syntax.Token} {n : Node} (h : n.Written T) :
    ((visits n).filter isMet).Perm (occurrencesIn n) := by
  induction hheight : n.height using Nat.strongRecOn generalizing n with
  | ind k ih =>
    subst hheight
    have hparts : ((visitedParts n).flatMap fun p => (visits p).filter isMet).Perm
        ((visitedParts n).flatMap occurrencesIn) :=
      List.Perm.flatMap_left _ fun p hp =>
        ih _ (height_lt_of_mem_visitedParts hp) (written_of_mem_visitedParts h hp) rfl
    have hformed := (Node.written_iff.mp h).2.1
    rw [visits_eq, List.filter_append, List.filter_flatMap]
    calc ((visitedParts n).flatMap fun p => (visits p).filter isMet) ++ [n].filter isMet
        |>.Perm ((visitedParts n).flatMap occurrencesIn ++ [n].filter isMet) :=
          hparts.append_right _
      _ |>.Perm (n.parts.flatMap occurrencesIn ++ [n].filter isMet) :=
          (flatMap_visitedParts_perm hformed).append_right _
      _ |>.Perm (occurrencesIn n) := (occurrencesIn_perm n).symm

/-- In trees that are read each name, member and call is visited once. -/
theorem visitOrder_perm {T : List Syntax.Token} {nodes : List Node} (h : ∀ n ∈ nodes, n.Written T) :
    (visitOrder nodes).Perm (occurrences nodes) := by
  rw [visitOrder, List.filter_flatMap]
  exact (List.Perm.flatMap_left _ fun n hn => filter_visits_perm (h n hn)).trans
    (occurrences_perm nodes).symm

/-! ### Walks -/

/-- The steps that a walk takes: all of them, or those up to the one that fails. -/
def taken (c : Codebase) (q : Questions) (m : Nat) (w : Walk) (s : Cache) : List Step → List Step
  | [] => []
  | step :: rest =>
    match (perform c q m w step).run s with
    | (.ok w', s') => step :: taken c q m w' s' rest
    | (.error _, _) => [step]

/-- A walk takes all its steps if it comes to its end, and begins with them in any case. -/
theorem taken_of_run (c : Codebase) (q : Questions) (m : Nat) (w : Walk) (s : Cache)
    (steps : List Step) :
    taken c q m w s steps <+: steps ∧
      ∀ w', ((steps.foldlM (perform c q m) w).run s).1 = .ok w' →
        taken c q m w s steps = steps := by
  induction steps generalizing w s with
  | nil => exact ⟨List.nil_prefix, fun _ _ => rfl⟩
  | cons step rest ih =>
    rw [taken, List.foldlM_cons, run_bind]
    rcases (perform c q m w step).run s with ⟨f | w₁, s₁⟩
    · exact ⟨⟨rest, rfl⟩, fun _ h => nomatch h⟩
    · obtain ⟨hbegins, hall⟩ := ih w₁ s₁
      exact ⟨(List.prefix_cons_inj step).mpr hbegins,
        fun w' h => congrArg (step :: ·) (hall w' h)⟩

/-- What a walk through the `i`th module has visited when it ends. -/
def visited (c : Codebase) (i : Nat) (body : List Node) (s : Cache) : List Met :=
  (taken c c.ask i {} s (stepsAll body)).filterMap Step.met?

/-- **Every name, member and call is visited once.** References are looked for in a module that has
been read, whatever is known of base classes and answers by then. The names, members and calls of
the module stand in the order of visits once each, and the walk visits them in that order. It comes
to the last one, and gives references, unless it fails for an illegible text in a hint, of this
module or another one. -/
theorem visited_of_references {sources : List SourceModule}
    (hparsed : ∀ m ∈ sources, ∃ source, parseModule source = .ok m.body) {c : Codebase}
    (hc : ∃ bases, c = { Codebase.ofModules (sources.map extractModule) with bases }) {i : Nat}
    {m : SourceModule} (hm : sources[i]? = some m) (s : Cache) :
    (visitOrder m.body).Perm (occurrences m.body) ∧
      visited c i m.body s <+: (visitOrder m.body).filterMap metAt? ∧
      ((∃ found, ((references c i).run s).1 = .ok found) ∧
          visited c i m.body s = (visitOrder m.body).filterMap metAt? ∨
        ∃ why, ((references c i).run s).1 = .error (.unreadable why) ∧
          ∃ d ∈ sources.map extractModule, ∃ hint ∈ hintsOf d, hint.HoldsIllegible why) := by
  obtain ⟨source, hsource⟩ := hparsed m (List.mem_of_getElem? hm)
  obtain ⟨hbegins, hall⟩ := taken_of_run c c.ask i {} s (stepsAll m.body)
  have hbody : ((c.modules[i]?).map fun d => d.source.body).getD [] = m.body := by
    obtain ⟨bases, rfl⟩ := hc
    simp [Codebase.ofModules, hm, extractModule]
  refine ⟨visitOrder_perm (written_of_parseModule hsource), ?_, ?_⟩
  · rw [← filterMap_met?_stepsAll]
    exact hbegins.filterMap _
  · rw [← filterMap_met?_stepsAll]
    rcases hrun : ((references c i).run s).1 with f | found
    · have hwork : (((Task.references i).work c).run s).1 = .error f := by
        rw [Task.work, run_bind]
        rcases hran : (references c i).run s with ⟨_ | _, _⟩
        all_goals simp_all
      obtain ⟨why, rfl, hint, hown | ⟨d, hd, hhint⟩, hholds⟩ :=
        exists_holdsIllegible_of_work hc hwork
      · cases hown
      · exact .inr ⟨why, rfl, d, hd, hint, hhint, hholds⟩
    · refine .inl ⟨⟨found, rfl⟩, ?_⟩
      rw [references, hbody, run_bind] at hrun
      rcases hran : ((stepsAll m.body).foldlM (perform c c.ask i) {}).run s with ⟨_ | w, s'⟩
      · rw [hran] at hrun
        cases hrun
      · rw [visited, hall w (congrArg Prod.fst hran)]

/-- Defaults, hints and decorators of a function come before its body, and what a comprehension goes
through before what it collects. -/
theorem visited_of_references_function :
    let m := readModule "m" "@d\ndef f(x: A, *, y=b) -> C:\n    return [g(z) for z in x.a]\n"
    let c := Codebase.ofModules [extractModule m]
    (∀ m' ∈ [m], ∃ source, parseModule source = .ok m'.body) ∧
      (visitOrder m.body).Perm (occurrences m.body) ∧
      visited c 0 m.body [] <+: (visitOrder m.body).filterMap metAt? ∧
      (visitOrder m.body).filterMap metAt? =
        [.name 0 "d" .load, .name 1 "b" .load, .name 1 "A" .load, .name 1 "C" .load,
          .name 2 "x" .load, .member ⟨2, 26⟩ 2 (.name "x") "a" .load, .name 2 "z" .store,
          .name 2 "g" .load, .name 2 "z" .load, .call 2 (.name "g")] ∧
      ((references c 0).run []).1 = .ok [] ∧
      visited c 0 m.body [] = (visitOrder m.body).filterMap metAt? := by
  intro m c
  have hparsed : ∀ m' ∈ [m], ∃ source, parseModule source = .ok m'.body :=
    List.forall_mem_singleton.mpr ⟨_, parseModule_readModule (by decide +kernel)⟩
  have hfound : ((references c 0).run []).1 = .ok [] := by decide +kernel
  obtain ⟨honce, hbegins, ⟨-, hvisited⟩ | ⟨why, hfault, -⟩⟩ :=
    visited_of_references hparsed (c := c) ⟨[], rfl⟩ (i := 0) rfl []
  · refine ⟨hparsed, honce, hbegins, ?_, hfound, hvisited⟩
    rw [← filterMap_met?_stepsAll]
    decide +kernel
  · rw [hfound] at hfault
    cases hfault

/-- A text in the hint of a parameter that holds the null character, as it should not, ends the
walk, so that names which come after it are not visited. -/
theorem not_always_visited :
    ¬ ∀ m : SourceModule, (∃ source, parseModule source = .ok m.body) →
      (visited (Codebase.ofModules [extractModule m]) 0 m.body []).Perm
        ((occurrences m.body).filterMap metAt?) := by
  intro h
  let m := readModule "m" "class A:\n    pass\ndef f(x: '\\0'):\n    pass\nA\n"
  have hvisited := h m ⟨_, parseModule_readModule (by decide +kernel)⟩
  have hmissed : .name 4 "A" .load ∈ (occurrences m.body).filterMap metAt? ∧
      .name 4 "A" .load ∉ visited (Codebase.ofModules [extractModule m]) 0 m.body [] := by
    decide +kernel
  exact hmissed.2 (hvisited.mem_iff.mpr hmissed.1)

end Concordance.Binding
