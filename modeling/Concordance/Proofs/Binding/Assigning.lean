import Concordance.Proofs.Binding.Scoping

/-!
# What an assignment binds

An assignment to a name is meant to bind it to the value of its right-hand side as it was before.
The walk meets the value first, then it binds the target to something that is not followed, and only
then it looks into what the value denotes: by names of which the target may be one. Where the first
name of the value is the target itself, as in `node = node.parent()`, nothing is known of the target
from then on, whatever it was bound to: `Assignment.binds_other`.

Otherwise the two come to the same, as long as no name that the value is resolved by is bound while
the value is met, by an assignment expression in it: `Assignment.binds_former_value`.

## Main definitions

* `Assignment`: assignments of a value to one name
* `BindsFormerValue`: what such an assignment is meant to bind
* `Designator.head?`: the name that an expression begins with

## Main results

* `Assignment.binds_former_value`, `Assignment.binds_other`: what it binds
* `not_always_former_value`: the two differ
-/

namespace Concordance.Binding

open Syntax

/-! ### Assignments to one name -/

/-- A tree that assigns the value `e` to the name `x` alone. -/
inductive Assignment (x : String) (e : Node) : Node → Prop where
  | statement {p place : Place} : Assignment x e (.assign p [.name place x .store] e)
  | expression {p place : Place} : Assignment x e (.named p (.name place x .store) e)

/-- What a value denotes as a variable holds it. -/
def heldAs (b : Option Denotation) : Denotation := (b.map Denotation.asValue).getD .other

/-- What a name is bound to after some steps. -/
def boundAfter (c : Codebase) (q : Questions) (m : Nat) (w : Walk) (xs : List Step) (x : String) :
    Resolve (Option Denotation) := do
  return findInScopes x (← xs.foldlM (perform c q m) w).scopes

/-- Once `t` has been met, the name `x` is bound to what `e` denotes in the scopes as they stood
before. What was kept by then was kept while `e` was met. -/
def BindsFormerValue (c : Codebase) (q : Questions) (m : Nat) (w : Walk) (x : String) (e t : Node) :
    Prop :=
  boundAfter c q m w (steps t) x =
    (do let _ ← (steps e).foldlM (perform c q m) w
        return some (heldAs (← resolveIn c q m w (.ofNode e))))

theorem bind_bind (name : String) (b b' : Option Denotation) (w : Walk) :
    (w.bind name b).bind name b' = w.bind name b' := by
  cases hscopes : w.scopes with
  | nil => simp [Walk.bind, hscopes]
  | cons s rest => simp [Walk.bind, hscopes, Table.insert_insert]

section

variable {x : String} {e t : Node} {c : Codebase} {q : Questions} {m : Nat} {w : Walk}

/-- The value is met, the target hides what it was bound to, and what the value denotes is found out
only then. -/
theorem Assignment.foldlM_steps (h : Assignment x e t) (c : Codebase) (q : Questions) (m : Nat)
    (w : Walk) :
    (steps t).foldlM (perform c q m) w =
      (do let v ← (steps e).foldlM (perform c q m) w
          let b ← resolveIn c q m (v.bind x none) (.ofNode e)
          return v.bind x (some (heldAs b))) := by
  obtain ⟨line, hsteps⟩ : ∃ line, steps t = steps e ++ ([.name line x .store] ++
      [.assign [x] (.ofNode e)]) := by
    cases h with
    | @statement p place => exact ⟨place.line, by simp [steps, stepsAll, targetNames]⟩
    | @expression p place => exact ⟨place.line, by simp [steps, targetNames]⟩
  have hheld (b : Option Denotation) (v : Walk) :
      (v.bind x none).bind x (b.map Denotation.asValue) = v.bind x (some (heldAs b)) := by
    rw [bind_bind]
    rfl
  rw [hsteps, List.foldlM_append]
  refine bind_congr fun v => ?_
  simp [perform, hheld]

/-- **An assignment binds the former value** of its right-hand side, where no name that the value is
resolved by is the target or bound while the value is met. -/
theorem Assignment.binds_former_value (h : Assignment x e t)
    (hother : ∀ n ∈ (Designator.ofNode e).asked, n ≠ x ∧ n ∉ boundAt 0 (steps e))
    (hscopes : w.scopes ≠ []) : BindsFormerValue c q m w x e t := by
  rw [BindsFormerValue, boundAfter, h.foldlM_steps, bind_assoc]
  refine Yields.bind_congr fun s v s' hv => ?_
  have hleaves : Leaves (boundAt 0 (steps e)) w v := (balanced_steps e).leaves w s v s' hv
  have hresolve : resolveIn c q m (v.bind x none) (.ofNode e) = resolveIn c q m w (.ofNode e) := by
    refine resolveIn_congr (fun n hn => findInScopes_congr ?_) ?_
    · obtain ⟨hx, hbound⟩ := hother n hn
      exact (map_view_bind hx none v).trans (hleaves.view n hbound)
    · exact (classes_bind x none v).trans hleaves.classes
  have hv : v.scopes ≠ [] := hleaves.scopes_ne_nil hscopes
  dsimp only
  rw [hresolve, bind_assoc]
  refine bind_congr fun b => ?_
  rw [pure_bind, findInScopes_bind hv]
  rfl

/-- A call of the method `parent` of what a name is bound to. -/
def parentCall (p : Place) (id : String) (args : List Node) : Node :=
  .call p (.member p (.name p id .load) "parent" .load) args []

/-- The target may well be mentioned in the value, as an argument of a call. -/
theorem binds_former_value_argument :
    let c := Codebase.ofModules [extractModule (readModule "m"
      "class Node:\n    def parent(self, other=None) -> 'Node':\n        return self\n")]
    let node := Denotation.instanceOf ⟨0, ⟨0, 0⟩⟩
    let w : Walk := { scopes := [⟨.function, [("node", node), ("up", .other)]⟩] }
    let p : Place := ⟨4, 4, 4⟩
    let e := parentCall p "node" [.name p "up" .load]
    let t : Node := .assign p [.name p "up" .store] e
    Assignment "up" e t ∧
      (∀ n ∈ (Designator.ofNode e).asked, n ≠ "up" ∧ n ∉ boundAt 0 (steps e)) ∧ w.scopes ≠ [] ∧
      BindsFormerValue c c.ask 0 w "up" e t ∧
      ((boundAfter c c.ask 0 w (steps t) "up").run []).1.toOption = some (some node) := by
  intro c node w p e t
  have hother : ∀ n ∈ (Designator.ofNode e).asked, n ≠ "up" ∧ n ∉ boundAt 0 (steps e) := by
    decide +kernel
  have hscopes : w.scopes ≠ [] := List.cons_ne_nil _ _
  exact ⟨.statement, hother, hscopes, Assignment.binds_former_value .statement hother hscopes,
    by decide +kernel⟩

/-! ### Values that begin with the target -/

/-- The name that an expression begins with. -/
def Designator.head? : Designator → Option String
  | .name id => some id
  | .member value _ => value.head?
  | .call callee _ => callee.head?
  | .unknown => none

/-- Nothing follows from a name that is bound to something that is not followed. -/
theorem yields_resolve_of_head {lookup : Lookup} {enclosing : Option ClassId} {d : Designator}
    (hx : lookup x = pure (some .other)) (hhead : d.head? = some x) :
    Yields (resolve c q lookup enclosing d) fun b => heldAs b = .other := by
  have hcases : Yields (resolve c q lookup enclosing d) fun b => b = none ∨ b = some .other := by
    have hmember {b : Option Denotation} (hb : b = none ∨ b = some .other) (attr : String) :
        memberOfOption c q b attr = pure none := by
      rcases hb with rfl | rfl <;> rfl
    have howner {b : Option Denotation} (hb : b = none ∨ b = some .other) (attr : String) :
        methodOwner? c b attr = none := by
      rcases hb with rfl | rfl <;> rfl
    have hcalled {b : Option Denotation} (hb : b = none ∨ b = some .other) :
        b.bind Denotation.called = none := by
      rcases hb with rfl | rfl <;> rfl
    induction d using resolve.induct with
    | case1 => cases hhead
    | case2 id =>
      obtain rfl : id = x := Option.some.inj hhead
      rw [resolve, hx]
      exact yields_pure (.inr rfl)
    | case3 value attr ih =>
      rw [resolve]
      refine (ih hhead).bind fun b hb => ?_
      rw [hmember hb]
      exact yields_pure (.inl rfl)
    | case4 id argument _ =>
      obtain rfl : id = x := Option.some.inj hhead
      rw [resolve, hx, pure_bind]
      exact yields_pure (.inl rfl)
    | case5 value attr argument ih =>
      rw [resolve]
      refine (ih hhead).bind fun b hb => ?_
      rw [howner hb, hmember hb, pure_bind]
      exact yields_pure (.inl (hcalled (.inl rfl)))
    | case6 callee argument hname hcallee ih =>
      rw [resolve.eq_6 _ _ _ _ _ _ hname hcallee]
      exact (ih hhead).bind fun b hb => yields_pure (.inl (hcalled hb))
  intro s b s' hb
  rcases hcases s b s' hb with rfl | rfl <;> rfl

/-- A value that begins with the target leaves nothing known of it. -/
theorem Assignment.binds_other (h : Assignment x e t) (hhead : (Designator.ofNode e).head? = some x)
    (hscopes : w.scopes ≠ []) :
    Yields (boundAfter c q m w (steps t) x) fun b => b = some .other := by
  rw [boundAfter, h.foldlM_steps, bind_assoc]
  refine ((balanced_steps e).leaves w).bind fun v hleaves => ?_
  have hv : v.scopes ≠ [] := hleaves.scopes_ne_nil hscopes
  have hx : lookupIn q m (v.bind x none) x = pure (some .other) := by
    rw [lookupIn, findInScopes_bind hv]
    rfl
  rw [bind_assoc]
  refine (yields_resolve_of_head hx hhead).bind fun b hb => ?_
  rw [pure_bind, findInScopes_bind hv, hb]
  exact yields_pure rfl

end

/-- In `node = node.parent()` what is bound is not the parent of the former node. -/
theorem not_always_former_value :
    ¬ ∀ (source : SourceModule) (front back : List Step) (x : String) (e t : Node),
      let c := Codebase.ofModules [extractModule source]
      Assignment x e t → stepsAll source.body = front ++ steps t ++ back →
        Yields (front.foldlM (perform c c.ask 0) {}) fun w =>
          w.scopes ≠ [] → BindsFormerValue c c.ask 0 w x e t := by
  intro h
  let source := readModule "m" <|
    "class Node:\n    def parent(self) -> 'Node':\n        return self\n" ++
    "def root(node: Node):\n    node = node.parent()\n    node.parent()\n"
  let c := Codebase.ofModules [extractModule source]
  let p : Place := ⟨4, 4, 4⟩
  let e := parentCall ⟨4, 11, 4⟩ "node" []
  let t : Node := .assign p [.name p "node" .store] e
  let front := (stepsAll source.body).take 7
  -- Both sides where a scope is open, as it is in a function.
  let after (w : Walk) : Resolve (Option Denotation) :=
    if w.scopes.isEmpty then pure none else boundAfter c c.ask 0 w (steps t) "node"
  let former (w : Walk) : Resolve (Option Denotation) :=
    if w.scopes.isEmpty then pure none
    else do
      let _ ← (steps e).foldlM (perform c c.ask 0) w
      return some (heldAs (← resolveIn c c.ask 0 w (.ofNode e)))
  have hsteps : stepsAll source.body = front ++ steps t ++ (stepsAll source.body).drop 12 := by
    decide +kernel
  have hdiffer : ((front.foldlM (perform c c.ask 0) {} >>= after).run []).1.toOption ≠
      ((front.foldlM (perform c c.ask 0) {} >>= former).run []).1.toOption := by
    decide +kernel
  refine hdiffer (congrArg (fun x : Resolve _ => (x.run []).1.toOption) (Yields.bind_congr ?_))
  intro s w s' hw
  by_cases hnil : w.scopes.isEmpty
  · exact (if_pos hnil).trans (if_pos hnil).symm
  · have hformer := h source front _ "node" e t .statement hsteps s w s' hw fun heq =>
      hnil (List.isEmpty_iff.mpr heq)
    exact (if_neg hnil).trans (Eq.trans hformer (if_neg hnil).symm)

end Concordance.Binding
