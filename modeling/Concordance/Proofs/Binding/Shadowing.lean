import Concordance.Proofs.Binding.Frames

/-!
# Bindings in a function shadow

A name that is bound in a function is not the class that bears it at the level of the module. Once
the name has been bound in the scope of the function, it stays held there until that scope is
closed, and it is seen from everything that stands within: loads of it are not recorded.

That holds from the first binding on. What is met before it is looked up further out, even where it
would only be run later, and an assignment expression within a comprehension binds the name for the
comprehension only: `not_always_unrecorded` and `recorded_before_binding` show both.

## Main definitions

* `BindsLocally`: what binds a name in the scope that it is in
* `functionSteps`: the steps of a function while its scope is open
* `Rests`, `Held`: the scope of a function stays open, and holds a name
* `FirstHeld`: steps up to the first one that binds a name in the function

## Main results

* `declaredAt?_eq_none`: class statements in functions are not those of declared classes
* `Held.append`: what is held stays held
* `unrecorded_of_binds`: loads that follow a binding in their function are not recorded
-/

namespace Concordance.Binding

open Syntax

/-! ### Scopes that stay open -/

/-- Steps that do not close the scope that is `d` scopes further out. -/
def StaysAbove : Nat → List Step → Prop
  | _, [] => True
  | d, s :: rest =>
    match s.shift with
    | .stays => StaysAbove d rest
    | .opens => StaysAbove (d + 1) rest
    | .closes => 0 < d ∧ StaysAbove (d - 1) rest

theorem Balanced.staysAbove_append {xs : List Step} (h : Balanced xs) {d : Nat} {ys : List Step}
    (hy : StaysAbove d ys) : StaysAbove d (xs ++ ys) := by
  induction h generalizing d ys with
  | nil => exact hy
  | single hs =>
    rw [List.singleton_append, StaysAbove, hs]
    exact hy
  | @scope o inner ho _ ih =>
    have hclose : StaysAbove (d + 1) (o.closing :: ys) := by
      rw [StaysAbove, o.shift_closing]
      exact ⟨d.succ_pos, hy⟩
    have hinner : StaysAbove d (o :: (inner ++ o.closing :: ys)) := by
      rw [StaysAbove, ho]
      exact ih hclose
    simpa using hinner
  | append _ _ ihx ihy =>
    rw [List.append_assoc]
    exact ihx (ihy hy)

theorem Balanced.staysAbove {xs : List Step} (h : Balanced xs) (d : Nat) : StaysAbove d xs := by
  have hnil : StaysAbove d [] := trivial
  simpa using h.staysAbove_append hnil

/-- The scope that is `d` scopes further out is that of a function, with some around it, and holds
the name if `held`. -/
def Rests (held : Prop) (around : List Frame) (d : Nat) (known : List Frame) : Prop :=
  ∃ front f, known = front ++ f :: around ∧ front.length = d ∧ f.kind = .function ∧
    (held → f.hold.isSome)

section

variable {n : String} {held : Prop} {around known : List Frame} {d : Nat}

theorem Rests.length_eq (h : Rests held around d known) : known.length = d + 1 + around.length := by
  obtain ⟨front, f, rfl, rfl, -⟩ := h
  simp
  omega

theorem Rests.holdBy (h : Rests held around d known) (k : Hold) :
    Rests held around d (holdBy k known) := by
  obtain ⟨front, f, rfl, hlength, hkind, hheld⟩ := h
  cases front with
  | nil => exact ⟨[], _, rfl, hlength, hkind, fun _ => rfl⟩
  | cons g front => exact ⟨_ :: front, f, rfl, hlength, hkind, hheld⟩

theorem Rests.enter (h : Rests held around d known) {s : Step} {rest : List Step}
    (hs : StaysAbove d (s :: rest)) :
    ∃ d', Rests held around d' (enter n known s) ∧ StaysAbove d' rest := by
  have hheld : Rests held around d (if n ∈ s.bound then Binding.holdBy s.by known else known) := by
    split
    · exact h.holdBy _
    · exact h
  rw [StaysAbove] at hs
  rw [Binding.enter]
  cases hshift : s.shift with
  | stays =>
    rw [hshift] at hs
    exact ⟨d, hheld, hs⟩
  | opens =>
    rw [hshift] at hs
    obtain ⟨front, f, hknown, hlength, hf⟩ := hheld
    exact ⟨d + 1, ⟨s.frame n :: front, f, by rw [hknown]; rfl, by simp [hlength], hf⟩, hs⟩
  | closes =>
    rw [hshift] at hs
    obtain ⟨front, f, rfl, rfl, hf⟩ := h
    cases front with
    | nil => exact absurd hs.1 (Nat.lt_irrefl 0)
    | cons g front => exact ⟨front.length, ⟨front, f, rfl, rfl, hf⟩, hs.2⟩

theorem Rests.foldl (h : Rests held around d known) {steps rest : List Step}
    (hs : StaysAbove d (steps ++ rest)) :
    ∃ d', Rests held around d' (steps.foldl (Binding.enter n) known) ∧ StaysAbove d' rest := by
  induction steps generalizing d known with
  | nil => exact ⟨d, h, hs⟩
  | cons s steps ih =>
    obtain ⟨d', h', hs'⟩ := h.enter (n := n) hs
    exact ih h' hs'

/-- A name that a function holds is seen from everywhere within it. -/
theorem Rests.seen_ne_none (h : Rests True around d known) : seen known ≠ none := by
  obtain ⟨front, f, rfl, -, hkind, hheld⟩ := h
  obtain ⟨k, hk⟩ := Option.isSome_iff_exists.mp (hheld trivial)
  have houtside (front : List Frame) : seenOutside (front ++ f :: around) ≠ none := by
    induction front with
    | nil => simp [seenOutside, hkind, hk]
    | cons g front ih =>
      rw [List.cons_append, seenOutside]
      split
      · exact ih
      · cases g.hold with
        | none => simpa using ih
        | some k => simp
  cases front with
  | nil => simp [seen, hk]
  | cons g front =>
    rw [List.cons_append, seen]
    cases g.hold with
    | none => simpa using houtside front
    | some k => simp

theorem tail_holdBy (k : Hold) (known : List Frame) : (holdBy k known).tail = known.tail := by
  cases known <;> rfl

theorem map_kind_holdBy (k : Hold) (known : List Frame) :
    (holdBy k known).map Frame.kind = known.map Frame.kind := by
  cases known <;> rfl

/-- Balanced steps leave the scopes as they were, but for what the innermost one holds. -/
theorem Balanced.foldl_enter {xs : List Step} (h : Balanced xs) (known : List Frame) :
    (xs.foldl (enter n) known).tail = known.tail ∧
      (xs.foldl (enter n) known).map Frame.kind = known.map Frame.kind := by
  have hheld (s : Step) (known : List Frame) :
      (if n ∈ s.bound then holdBy s.by known else known).tail = known.tail ∧
        (if n ∈ s.bound then holdBy s.by known else known).map Frame.kind =
          known.map Frame.kind := by
    split
    · exact ⟨tail_holdBy _ _, map_kind_holdBy _ _⟩
    · exact ⟨rfl, rfl⟩
  induction h generalizing known with
  | nil => exact ⟨rfl, rfl⟩
  | @single s hs =>
    rw [List.foldl_cons, List.foldl_nil, enter, hs]
    exact hheld s known
  | @scope o inner ho _ ih =>
    have hinner := (ih (enter n known o)).1
    rw [List.cons_append, List.foldl_cons, List.foldl_append, List.foldl_cons, List.foldl_nil,
      enter, o.shift_closing]
    dsimp only
    rw [hinner, enter, ho]
    exact hheld o known
  | append _ _ ihx ihy =>
    rw [List.foldl_append]
    exact ⟨(ihy _).1.trans (ihx known).1, (ihy _).2.trans (ihx known).2⟩

theorem OnlyClasses.foldl_enter {xs : List Step} (h : OnlyClasses xs)
    (hknown : ∀ f ∈ known, f.kind = .classBody) :
    ∀ f ∈ xs.foldl (enter n) known, f.kind = .classBody := by
  have hkinds {known known' : List Frame} (hkind : known'.map Frame.kind = known.map Frame.kind)
      (hknown : ∀ f ∈ known, f.kind = .classBody) : ∀ f ∈ known', f.kind = .classBody := by
    intro f hf
    obtain ⟨g, hg, hgf⟩ := List.mem_map.mp (hkind ▸ List.mem_map_of_mem hf)
    exact hgf.symm.trans (hknown g hg)
  induction h generalizing known with
  | balanced h => exact hkinds (h.foldl_enter known).2 hknown
  | openClass name position =>
    refine List.forall_mem_cons.mpr ⟨rfl, ?_⟩
    split
    · exact hkinds (map_kind_holdBy _ _) hknown
    · exact hknown
  | append _ _ ihx ihy =>
    rw [List.foldl_append]
    exact ihy (ihx hknown)

end

/-! ### Declared classes -/

/-- Where the class stands whose body a step opens. -/
def Step.classPosition? : Step → Option Position
  | .openClass _ position => some position
  | _ => none

/-- Where the classes stand whose bodies are opened. -/
def classPositions (steps : List Step) : List Position := steps.filterMap Step.classPosition?

/-- Entries of the same place can only be split at in one way. -/
theorem eq_of_nodup_filterMap {α β : Type} {f : α → Option β} {x x' : α} {y : β}
    (hx : f x = some y) (hx' : f x' = some y) {before before' after after' : List α}
    (h : before ++ x :: after = before' ++ x' :: after')
    (hnodup : ((before ++ x :: after).filterMap f).Nodup) : before = before' := by
  have htwice {z : α} {rest : List α} (hz : f z = some y)
      (hnodup : ((z :: rest).filterMap f).Nodup) {z' : α} (hz' : f z' = some y) : z' ∉ rest := by
    rw [List.filterMap_cons_some hz, List.nodup_cons] at hnodup
    exact fun hmem => hnodup.1 (List.mem_filterMap.mpr ⟨z', hmem, hz'⟩)
  induction before generalizing before' with
  | nil =>
    cases before' with
    | nil => rfl
    | cons z rest =>
      obtain ⟨rfl, rfl⟩ := List.cons.inj h
      exact absurd (by simp) (htwice hx hnodup hx')
  | cons z rest ih =>
    cases before' with
    | nil =>
      obtain ⟨rfl, -⟩ := List.cons.inj h
      exact absurd (by simp) (htwice hx' hnodup hx)
    | cons z' rest' =>
      obtain ⟨rfl, hrest⟩ := List.cons.inj h
      rw [ih hrest (hnodup.sublist ((List.sublist_cons_self _ _).filterMap f))]

/-- A class statement in a function is not that of a declared class, if no two class statements
stand at the same place. -/
theorem declaredAt?_eq_none {c : Codebase} {m : Nat} {source : SourceModule}
    (hm : c.modules[m]? = some (extractModule source))
    (hplaces : (classPositions (stepsAll source.body)).Nodup) {o : Step} {inner : List Step}
    (ho : o.shift = .opens) (hkind : (o.frame "").kind = .function) (hinner : Balanced inner)
    (hmet : o :: inner <:+: stepsAll source.body) {name : String} {position : Position}
    (hclass : .openClass name position ∈ o :: inner) : declaredAt? c m position = none := by
  rw [declaredAt?, Option.map_eq_none_iff, Codebase.classDecl?, hm, Option.bind_some]
  refine Option.eq_none_iff_forall_ne_some.mpr fun d hd => ?_
  have hposition : d.position = position := by simpa using List.find?_some hd
  obtain ⟨before, name', after, hsteps, hbefore⟩ :=
    opensOutside_of_mem_classes (List.mem_of_find?_eq_some hd)
  rw [hposition] at hsteps
  obtain ⟨within, rest, hsplit⟩ := List.append_of_mem hclass
  obtain ⟨front, back, hfront⟩ := hmet
  have heq : before = front ++ within := by
    have happend : before ++ .openClass name' position :: after =
        (front ++ within) ++ .openClass name position :: (rest ++ back) := by
      rw [← hsteps, ← hfront, hsplit]
      simp
    exact eq_of_nodup_filterMap (f := Step.classPosition?) rfl rfl happend (hsteps ▸ hplaces)
  cases within with
  | nil =>
    obtain ⟨rfl, -⟩ := List.cons.inj hsplit
    cases hkind
  | cons o' within =>
    obtain ⟨rfl, rfl⟩ := List.cons.inj hsplit
    -- the function that is open there is no class body
    have houtside : ∀ f ∈ frames "" before, f.kind = .classBody :=
      hbefore.foldl_enter (List.forall_mem_nil _)
    rw [heq, frames, List.foldl_append, List.foldl_cons] at houtside
    obtain ⟨around, hopen⟩ :
        ∃ around, Rests False around 0 (enter "" (front.foldl (enter "") []) o) := by
      rw [enter, ho]
      exact ⟨_, [], _, rfl, rfl, hkind, False.elim⟩
    obtain ⟨d', ⟨front', f, hknown, -, hf, -⟩, -⟩ := hopen.foldl (n := "") (hinner.staysAbove 0)
    have hclassBody := houtside f (by rw [hknown]; simp)
    rw [hf] at hclassBody
    cases hclassBody

/-! ### Functions -/

/-- The names of the parameters of a function. -/
def ownParameters : Node → List String
  | .functionDef _ _ _ parameters _ _ _ => parameterNames parameters
  | .lambda _ parameters _ => parameterNames parameters
  | _ => []

/-- What stands in the scope of a function. -/
def inside : Node → List Node
  | .functionDef _ _ _ _ body _ _ => body
  | .lambda _ _ body => [body]
  | _ => []

/-- The steps of a function from where its scope is opened up to where it is closed. -/
def functionSteps : Node → List Step
  | .functionDef _ _ name parameters body decorators _ =>
    .openFunction name (signature name parameters decorators) :: stepsAll body
  | .lambda _ parameters body => .openScope (parameterNames parameters) :: stepsAll [body]
  | _ => []

/-- A name is bound in the scope that a tree is in, other than by an import: as a target of an
assignment, of a loop, of a context or of an assignment expression, as a function or class that is
defined, as an exception that is caught, or in a pattern. -/
inductive BindsLocally (n : String) : Node → Prop where
  | target {p : Place} {use : Use} (h : use ≠ .load) : BindsLocally n (.name p n use)
  | functionDef {p : Place} {async : Bool} {parameters : Node} {body decorators : List Node}
      {returns : Option Node} :
      BindsLocally n (.functionDef p async n parameters body decorators returns)
  | classDef {p : Place} {bases keywords body decorators : List Node} :
      BindsLocally n (.classDef p n bases keywords body decorators)
  | handler {p : Place} {type : Option Node} {body : List Node} :
      BindsLocally n (.handler p type (some n) body)
  | matchAs {p : Place} {pattern : Option Node} : BindsLocally n (.matchAs p pattern (some n))
  | matchStar {p : Place} : BindsLocally n (.matchStar p (some n))
  | matchMapping {p : Place} {keys patterns : List Node} :
      BindsLocally n (.matchMapping p keys patterns (some n))
  | part {t part : Node} (hpart : part ∈ sharedParts t) (h : BindsLocally n part) : BindsLocally n t

section

variable {n : String}

theorem BindsLocally.exists_step {t : Node} (h : BindsLocally n t) :
    ∃ s, InScope (steps t) [s] ∧ n ∈ s.bound := by
  induction h with
  | @target p use h =>
    refine ⟨_, .refl _, ?_⟩
    cases use with
    | load => exact absurd rfl h
    | store => exact List.mem_singleton_self n
    | delete => exact List.mem_singleton_self n
  | @functionDef p async parameters body decorators returns =>
    have hbefore := (((balanced_stepsAll decorators).append
      (balanced_stepsOfDefaults parameters)).append (balanced_stepsOfHints parameters)).append
      (balanced_stepsOption returns)
    refine ⟨.openFunction n (signature n parameters decorators),
      ⟨_, stepsAll body ++ [.closeScope], ?_, hbefore⟩, List.mem_singleton_self n⟩
    rw [steps]
    simp
  | @classDef p bases keywords body decorators =>
    have hbefore := ((balanced_stepsAll decorators).append (balanced_stepsAll bases)).append
      (balanced_stepsAll keywords)
    refine ⟨.openClass n ⟨p.line, p.column⟩,
      ⟨_, stepsAll body ++ [.closeClass], ?_, hbefore⟩, List.mem_singleton_self n⟩
    rw [steps]
    simp
  | handler =>
    exact ⟨_, ((InScope.refl [_]).append_left (balanced_stepsOption _)).append_right _,
      List.mem_singleton_self n⟩
  | matchAs => exact ⟨_, (InScope.refl [_]).append_right _, List.mem_singleton_self n⟩
  | matchStar => exact ⟨_, .refl [_], List.mem_singleton_self n⟩
  | matchMapping =>
    exact ⟨_, ((InScope.refl [_]).append_right _).append_right _, List.mem_singleton_self n⟩
  | part hpart _ ih =>
    obtain ⟨s, hs, hn⟩ := ih
    exact ⟨s, (inScope_of_mem_sharedParts hpart).trans hs, hn⟩

theorem map_fst_filterMap_parameter? (ps : List Node) :
    (ps.filterMap parameter?).map Prod.fst = ps.filterMap parameterName? := by
  rw [List.map_filterMap]
  refine List.filterMap_congr fun p _ => ?_
  cases p with
  | parameter _ name hint => cases hint <;> rfl
  | _ => rfl

/-- A function that binds a name opens a scope with its parameters. -/
theorem exists_opening {F : Node} (h : n ∈ ownParameters F ∨ ∃ t ∈ inside F, BindsLocally n t) :
    ∃ o, functionSteps F = o :: stepsAll (inside F) ∧ o.shift = .opens ∧
      (o.frame n).kind = .function ∧ o.opened = ownParameters F := by
  cases F with
  | functionDef _ _ name parameters body decorators _ =>
    refine ⟨_, rfl, rfl, rfl, ?_⟩
    rw [Step.opened, signature, map_fst_filterMap_parameter?]
    rfl
  | lambda _ parameters body => exact ⟨_, rfl, rfl, rfl, rfl⟩
  | _ => simp [ownParameters, inside] at h

/-! ### Loads that follow a binding -/

/-- The first of some scopes is that of a function and holds the name. -/
def Held (known : List Frame) : Prop := ∃ d, Rests True [] d known

/-- Steps up to the first one after which the scope that they open holds a name. -/
def FirstHeld (n : String) (early : List Step) : Prop :=
  Held (frames n early) ∧ ∀ front, front <+: early → Held (frames n front) → front = early

theorem exists_firstHeld {early : List Step} (h : Held (frames n early)) (late : List Step) :
    ∃ early' late', early ++ late = early' ++ late' ∧ FirstHeld n early' := by
  classical
  have hsome : ∃ k, ∃ front, front <+: early ++ late ∧ Held (frames n front) ∧ front.length = k :=
    ⟨_, early, List.prefix_append _ _, h, rfl⟩
  obtain ⟨front, ⟨late', hfront⟩, hheld, hlength⟩ := Nat.find_spec hsome
  refine ⟨front, late', hfront.symm, hheld, fun front' hfront' hheld' => ?_⟩
  refine hfront'.eq_of_length_le ?_
  rw [hlength]
  exact Nat.find_min' hsome ⟨front', hfront'.trans ⟨late', hfront⟩, hheld', rfl⟩

theorem Step.bound_of_closes {s : Step} (h : s.shift = .closes) : s.bound = [] := by
  cases s with
  | closeClass => rfl
  | closeScope => rfl
  | _ => cases h

section

variable {o : Step} {inner : List Step} (ho : o.shift = .opens)
  (hkind : (o.frame n).kind = .function)

include ho in
theorem frames_singleton : frames n [o] = [o.frame n] := by
  have hnil : (if n ∈ o.bound then holdBy o.by [] else []) = [] := by
    split <;> rfl
  rw [frames, List.foldl_cons, List.foldl_nil, enter, ho, hnil]

include ho hkind

/-- A parameter is held from the start. -/
theorem held_of_mem_opened (hn : n ∈ o.opened) : Held (frames n [o]) := by
  rw [frames_singleton ho]
  exact ⟨0, [], o.frame n, rfl, rfl, hkind, fun _ => by simp [Step.frame, hn]⟩

/-- A name that a step binds in the scope of the function is held after the step. -/
theorem held_of_inScope {s : Step} (hs : n ∈ s.bound) {before : List Step}
    (hbefore : Balanced before) : Held (frames n (o :: before ++ [s])) := by
  have hkinds := (hbefore.foldl_enter (n := n) (frames n [o])).2
  rw [frames_singleton ho] at hkinds
  obtain ⟨f, hknown, hf⟩ := List.map_eq_singleton_iff.mp hkinds
  have hframes : frames n (o :: before ++ [s]) = enter n [f] s := by
    rw [← hknown, ← frames_singleton (n := n) ho, frames, List.foldl_append]
    rfl
  rw [hframes, enter, if_pos hs]
  cases hshift : s.shift with
  | stays => exact ⟨0, [], _, rfl, rfl, hf.trans hkind, fun _ => rfl⟩
  | opens => exact ⟨1, [s.frame n], _, rfl, rfl, hf.trans hkind, fun _ => rfl⟩
  | closes =>
    rw [Step.bound_of_closes hshift] at hs
    cases hs

/-- What is held stays held as long as the function is open. -/
theorem Held.append {early mid rest : List Step} (hinner : Balanced (early ++ (mid ++ rest)))
    (h : Held (frames n (o :: early))) : Held (frames n (o :: early ++ mid)) := by
  have hopen : Rests False [] 0 (frames n [o]) := by
    rw [frames_singleton ho]
    exact ⟨[], o.frame n, rfl, rfl, hkind, False.elim⟩
  obtain ⟨d, hearly, hrest⟩ := hopen.foldl (n := n) (hinner.staysAbove 0)
  obtain ⟨d', hheld⟩ := h
  have hd : d' = d := by
    have hlength := hearly.length_eq
    have hlength' := hheld.length_eq
    rw [frames, List.foldl_cons] at hlength'
    rw [frames, List.foldl_cons, List.foldl_nil] at hlength
    omega
  subst hd
  obtain ⟨d'', hmid, -⟩ := hheld.foldl (n := n) hrest
  rw [frames, List.foldl_append]
  exact ⟨d'', hmid⟩

end

/-- The steps of a function are part of those of its tree. -/
theorem functionSteps_within (F : Node) : functionSteps F <:+: steps F := by
  cases F with
  | functionDef _ _ name parameters body decorators returns =>
    exact ⟨stepsAll decorators ++ stepsOfDefaults parameters ++ stepsOfHints parameters ++
      stepsOption returns, [.closeScope], by simp [functionSteps, steps]⟩
  | lambda _ parameters body =>
    exact ⟨stepsOfDefaults parameters, [.closeScope], by simp [functionSteps, steps, stepsAll]⟩
  | _ => exact List.nil_infix

theorem exists_held {F : Node} {o : Step} (hsteps : functionSteps F = o :: stepsAll (inside F))
    (ho : o.shift = .opens) (hkind : (o.frame n).kind = .function)
    (hopened : o.opened = ownParameters F)
    (hbinds : n ∈ ownParameters F ∨ ∃ t ∈ inside F, BindsLocally n t) :
    ∃ early late, functionSteps F = early ++ late ∧ Held (frames n early) := by
  rcases hbinds with hn | ⟨t, ht, hn⟩
  · exact ⟨[o], stepsAll (inside F), hsteps, held_of_mem_opened ho hkind (hopened ▸ hn)⟩
  · obtain ⟨s, hs, hbound⟩ := hn.exists_step
    obtain ⟨before, after, hinner, hbefore⟩ := (inScope_stepsAll ht).trans hs
    refine ⟨o :: before ++ [s], after, ?_, held_of_inScope ho hkind hbound hbefore⟩
    rw [hsteps, hinner]
    simp

/-- **Bindings in a function shadow.** A function of a module has a parameter of a name, or the name
is bound in its own scope, other than by an import. From the first such binding on, from the start
for a parameter, loads of the name in the function and in everything within it are not recorded,
whatever the name is bound to around the function: as long as no import that binds the name is seen
there. No two class statements of the module may stand at the same place. -/
theorem unrecorded_of_binds {c : Codebase} {m : Nat} {source : SourceModule}
    (hm : c.modules[m]? = some (extractModule source))
    (hplaces : (classPositions (stepsAll source.body)).Nodup) {F : Node}
    (hmet : steps F <:+: stepsAll source.body)
    (hbinds : n ∈ ownParameters F ∨ ∃ t ∈ inside F, BindsLocally n t) :
    ∃ early late, functionSteps F = early ++ late ∧ FirstHeld n early ∧
      (n ∈ ownParameters F → early.length = 1) ∧
      ∀ (mid rest : List Step) (line : Nat), late = mid ++ .name line n .load :: rest →
        seen (frames n (early ++ mid)) ≠ some .imported →
        ∀ (q : Questions) (w : Walk), Yields ((early ++ mid).foldlM (perform c q m) w) fun v =>
          perform c q m v (.name line n .load) = pure v := by
  obtain ⟨o, hsteps, ho, hkind, hopened⟩ := exists_opening hbinds
  obtain ⟨early, late, hsplit, hheld⟩ := exists_held hsteps ho hkind hopened hbinds
  obtain ⟨early, late, hsplit', hfirst⟩ := exists_firstHeld hheld late
  rw [hsplit'] at hsplit
  have hnonempty : early ≠ [] := by
    rintro rfl
    obtain ⟨d, front, f, hnil, -⟩ := hfirst.1
    simp [frames] at hnil
  obtain ⟨early, rfl⟩ : ∃ inner, early = o :: inner := by
    cases early with
    | nil => exact absurd rfl hnonempty
    | cons o' inner =>
      obtain ⟨rfl, -⟩ := List.cons.inj (hsteps.symm.trans hsplit)
      exact ⟨inner, rfl⟩
  have hinner : stepsAll (inside F) = early ++ late := (List.cons.inj (hsteps.symm.trans hsplit)).2
  have hbalanced : Balanced (early ++ late) := hinner ▸ balanced_stepsAll (inside F)
  refine ⟨o :: early, late, hsplit, hfirst, fun hn => ?_, ?_⟩
  · have hstart := hfirst.2 [o] ⟨early, rfl⟩ (held_of_mem_opened ho hkind (hopened ▸ hn))
    rw [← hstart]
    rfl
  · rintro mid rest line rfl hseen q w s v s' hv
    have hlocal : ∀ position, .openClass n position ∈ o :: early ++ mid →
        declaredAt? c m position = none := by
      intro position hmem
      have hclass : .openClass n position ∈ o :: stepsAll (inside F) := by
        rw [hinner]
        simp only [List.cons_append, List.mem_cons, List.mem_append] at hmem ⊢
        tauto
      exact declaredAt?_eq_none hm hplaces ho hkind (balanced_stepsAll (inside F))
        (hsteps ▸ (functionSteps_within F).trans hmet) hclass
    have hfits := fits_foldlM (fits_nil w.scopes) hlocal s v s' hv
    obtain ⟨d, hrests⟩ := Held.append ho hkind hbalanced hfirst.1
    cases hs : seen (frames n (o :: early ++ mid)) with
    | none => exact absurd hs hrests.seen_ne_none
    | some k =>
      cases k with
      | value => exact perform_load_of_seen hfits hs line
      | imported => exact absurd hs hseen

end

/-- A parameter is seen from a function that is defined within. -/
theorem unrecorded_of_binds_parameter :
    let source := readModule "m"
      "class A:\n    pass\ndef f(A):\n    def g():\n        return A\n    return g\n"
    let c := Codebase.ofModules [extractModule source]
    let load := Step.name 4 "A" .load
    ∃ F before after, steps F <:+: stepsAll source.body ∧ "A" ∈ ownParameters F ∧
      functionSteps F = before ++ load :: after ∧
      ∀ (q : Questions) (w : Walk), Yields (before.foldlM (perform c q 0) w) fun v =>
        perform c q 0 v load = pure v := by
  intro source c load
  let o : Step := .openFunction "f" ⟨.anInstance, [("A", .nothing)], []⟩
  let g : Step := .openFunction "g" ⟨.plain, [], []⟩
  have hshape : source.body.map (fun t => (ownParameters t, functionSteps t)) =
      [([], []), (["A"], [o, g, load, .closeScope, .name 5 "g" .load])] := by decide +kernel
  have hplaces : (classPositions (stepsAll source.body)).Nodup := by decide +kernel
  obtain ⟨t, rest, hbody, -, hrest⟩ := List.map_eq_cons_iff.mp hshape
  obtain ⟨F, rest, rfl, hF, hnil⟩ := List.map_eq_cons_iff.mp hrest
  obtain rfl := List.map_eq_nil_iff.mp hnil
  obtain ⟨hparameters, hsteps⟩ := Prod.mk.inj hF
  have hmet : steps F <:+: stepsAll source.body :=
    ⟨steps t, [], by rw [hbody]; simp [stepsAll]⟩
  have hparameter : "A" ∈ ownParameters F := by simp [hparameters]
  obtain ⟨early, late, hsplit, -, hstart, hlate⟩ :=
    unrecorded_of_binds (c := c) (m := 0) rfl hplaces hmet (.inl hparameter)
  obtain ⟨e, rfl⟩ := List.length_eq_one_iff.mp (hstart hparameter)
  obtain ⟨rfl, rfl⟩ := List.cons.inj (hsteps.symm.trans hsplit)
  exact ⟨F, [o, g], _, hmet, hparameter, hsteps, hlate [g] _ 4 rfl (by decide)⟩

/-! ### Loads that are recorded all the same -/

/-- A name is bound by an assignment expression, maybe within comprehensions. -/
inductive Assigns (n : String) : Node → Prop where
  | named {p q : Place} {use : Use} {value : Node} : Assigns n (.named p (.name q n use) value)
  | part {t part : Node} (hpart : part ∈ sharedParts t) (h : Assigns n part) : Assigns n t
  | comprehension {p : Place} {form : Comprehension} {elements generators : List Node} {part : Node}
      (hpart : part ∈ elements ++ generators) (h : Assigns n part) :
      Assigns n (.comprehension p form elements generators)

/-- Neither imports nor declarations in a function say that a name is not its own. -/
structure Owns (F : Node) (n : String) : Prop where
  imports : ∀ s ∈ functionSteps F, s.by = .imported → n ∉ s.bound
  outer : ∀ p isGlobal names, .outerNames p isGlobal names ∈ Node.breadthFirstAll (inside F) →
    n ∉ names

/-- Loads of a name in a function are not recorded in the walk through its module. -/
def Unrecorded (source : SourceModule) (F : Node) (n : String) : Prop :=
  let c := Codebase.ofModules [extractModule source]
  ∀ front before after back line, stepsAll source.body = front ++ functionSteps F ++ back →
    functionSteps F = before ++ .name line n .load :: after →
    Yields ((front ++ before).foldlM (perform c c.ask 0) {}) fun v =>
      perform c c.ask 0 v (.name line n .load) = pure v

/-- What some steps at the start of a module record. -/
def recorded (source : SourceModule) (steps : List Step) : Option (List (String × Nat)) :=
  let c := Codebase.ofModules [extractModule source]
  ((steps.foldlM (perform c c.ask 0) {}).run []).1.toOption.map Walk.found

theorem not_unrecorded {source : SourceModule} {F : Node} {n : String} {line k : Nat}
    {front back : List Step} (hmet : stepsAll source.body = front ++ functionSteps F ++ back)
    (hload : (functionSteps F)[k]? = some (.name line n .load))
    (hbefore : recorded source (front ++ (functionSteps F).take k) = some [])
    (hafter : recorded source (front ++ (functionSteps F).take (k + 1)) ≠ some []) :
    ¬ Unrecorded source F n := by
  intro h
  obtain ⟨hk, hget⟩ := List.getElem?_eq_some_iff.mp hload
  have hsteps : functionSteps F =
      (functionSteps F).take k ++ .name line n .load :: (functionSteps F).drop (k + 1) := by
    rw [← hget, List.getElem_cons_drop, List.take_append_drop]
  have hyields := h front _ _ back line hmet hsteps []
  rw [recorded] at hbefore hafter
  rw [← List.take_concat_get' _ _ hk, hget, ← List.append_assoc, List.foldlM_append,
    run_bind] at hafter
  rcases hrun : ((front ++ (functionSteps F).take k).foldlM (perform _ _ 0) {}).run [] with
    ⟨e | v, s⟩
  · rw [hrun] at hbefore
    cases hbefore
  · rw [hrun] at hbefore hafter
    refine hafter (Eq.trans ?_ hbefore)
    dsimp only
    rw [List.foldlM_cons, hyields v s hrun]
    rfl

/-- A function that no import and no declaration is in. -/
theorem owns_of_forall {F : Node} (himports : ∀ s ∈ functionSteps F, s.by ≠ .imported)
    (houter : (Node.breadthFirstAll (inside F)).all (fun t =>
      match t with
      | .outerNames .. => false
      | _ => true) = true) (n : String) : Owns F n where
  imports s hs himported := absurd himported (himports s hs)
  outer p isGlobal names hnames := by cases List.all_eq_true.mp houter _ hnames

/-- A statement before a function that begins with a comprehension which assigns to `A`. -/
def assignsWithin : List Node → Bool
  | [_, .functionDef _ _ _ _ (.plain _ _ [.comprehension _ _ [.named _ (.name _ "A" _) _] _] :: _)
      _ _] => true
  | _ => false

/-- An assignment expression within a comprehension does not bind its name in the function around,
as it should: a load that follows it is recorded. -/
theorem not_always_unrecorded :
    ¬ ∀ (source : SourceModule) (F : Node) (n : String),
      (classPositions (stepsAll source.body)).Nodup → steps F <:+: stepsAll source.body →
      Owns F n → (n ∈ ownParameters F ∨ ∃ t ∈ inside F, BindsLocally n t ∨ Assigns n t) →
      Unrecorded source F n := by
  intro h
  let source := readModule "m"
    "class A:\n    pass\ndef f(xs):\n    [A := x for x in xs]\n    return A\n"
  have hshape : assignsWithin source.body = true := by decide +kernel
  let front := (stepsAll source.body).take 2
  have hwalk : (classPositions (stepsAll source.body)).Nodup ∧
      ∀ t ∈ source.body, inside t ≠ [] → steps t <:+: stepsAll source.body ∧
        (∀ s ∈ functionSteps t, s.by ≠ .imported) ∧
        (Node.breadthFirstAll (inside t)).all (fun u =>
          match u with
          | .outerNames .. => false
          | _ => true) = true ∧
        stepsAll source.body = front ++ functionSteps t ++ [.closeScope] ∧
        (functionSteps t)[8]? = some (.name 4 "A" .load) ∧
        recorded source (front ++ (functionSteps t).take 8) = some [] ∧
        recorded source (front ++ (functionSteps t).take 9) = some [("p/m:A", 4)] := by
    decide +kernel
  rw [assignsWithin.eq_def] at hshape
  split at hshape
  · rename_i t p async name parameters p₁ form p₂ kind p₃ p₄ use value generators rest decorators
      returns hbody
    have hF := List.mem_of_mem_getLast? (l := source.body) (by rw [hbody]; rfl)
    have hassigns : Assigns "A" (.plain p₁ form
        [.comprehension p₂ kind [.named p₃ (.name p₄ "A" use) value] generators]) :=
      .part (List.mem_singleton_self _)
        (.comprehension (List.mem_append_left _ (List.mem_singleton_self _)) .named)
    obtain ⟨hpart, himports, houter, hmet, hload, hbefore, hafter⟩ :=
      hwalk.2 _ hF (List.cons_ne_nil _ _)
    exact not_unrecorded hmet hload hbefore (by rw [hafter]; rintro ⟨⟩) (h source _ "A" hwalk.1 hpart
      (owns_of_forall himports houter "A") (.inr ⟨_, List.mem_cons_self, .inr hassigns⟩))
  · cases hshape

/-- A statement before a function that assigns to `A` as the second of three statements. -/
def assignsSecond : List Node → Bool
  | [_, .functionDef _ _ _ _ [_, .assign _ [.name _ "A" .store] _, _] _ _] => true
  | _ => false

/-- What is met before the first binding is recorded, also in a function that would run after it. -/
theorem recorded_before_binding :
    ¬ ∀ (source : SourceModule) (F : Node) (n : String),
      (classPositions (stepsAll source.body)).Nodup → steps F <:+: stepsAll source.body →
      Owns F n → (n ∈ ownParameters F ∨ ∃ t ∈ inside F, BindsLocally n t) →
      Unrecorded source F n := by
  intro h
  let source := readModule "m"
    "class A:\n    pass\ndef f():\n    def g():\n        return A\n    A = 1\n    return g\n"
  have hshape : assignsSecond source.body = true := by decide +kernel
  let front := (stepsAll source.body).take 2
  have hwalk : (classPositions (stepsAll source.body)).Nodup ∧
      ∀ t ∈ source.body, inside t ≠ [] → steps t <:+: stepsAll source.body ∧
        (∀ s ∈ functionSteps t, s.by ≠ .imported) ∧
        (Node.breadthFirstAll (inside t)).all (fun u =>
          match u with
          | .outerNames .. => false
          | _ => true) = true ∧
        stepsAll source.body = front ++ functionSteps t ++ [.closeScope] ∧
        (functionSteps t)[2]? = some (.name 4 "A" .load) ∧
        recorded source (front ++ (functionSteps t).take 2) = some [] ∧
        recorded source (front ++ (functionSteps t).take 3) = some [("p/m:A", 4)] := by
    decide +kernel
  rw [assignsSecond.eq_def] at hshape
  split at hshape
  · rename_i t p async name parameters g p₁ p₂ value returning decorators returns hbody
    have hF := List.mem_of_mem_getLast? (l := source.body) (by rw [hbody]; rfl)
    have hbinds : BindsLocally "A" (.assign p₁ [.name p₂ "A" .store] value) :=
      .part List.mem_cons_self (.target (by rintro ⟨⟩))
    obtain ⟨hpart, himports, houter, hmet, hload, hbefore, hafter⟩ :=
      hwalk.2 _ hF (List.cons_ne_nil _ _)
    exact not_unrecorded hmet hload hbefore (by rw [hafter]; rintro ⟨⟩) (h source _ "A" hwalk.1 hpart
      (owns_of_forall himports houter "A") (.inr ⟨_, List.mem_cons_of_mem _ List.mem_cons_self, hbinds⟩))
  · cases hshape

end Concordance.Binding
