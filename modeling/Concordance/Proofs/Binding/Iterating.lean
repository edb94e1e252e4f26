import Concordance.Proofs.Binding.Assigning
import Concordance.Proofs.Binding.Coupling

/-!
# What a loop goes through

A comprehension is met from what it goes through on, and that stands in the scopes around it. A loop
is met target first, as its parts stand in the tree: what it goes through is looked into when the
target is bound already, to something that is not followed. In `for node in node.parent()` the call
is not recorded: `not_always_in_former_scopes`.

Nothing is lost where the target binds no name that is looked up in what the loop goes through. Names
that are bound within it, in a comprehension or a lambda, are none of those.

## Main definitions

* `GoesThroughFormer`: what a loop goes through is met as if the target were not bound

## Main results

* `goesThroughFormer_of_notMem`: loops of which it is so
* `not_always_in_former_scopes`: the others
-/

namespace Concordance.Binding

open Syntax

/-- The target of a loop is met, then what it goes through. The references recorded in that are
those which would be recorded in the scopes as they stood before the loop. -/
def GoesThroughFormer (c : Codebase) (q : Questions) (m : Nat) (w : Walk) (target iter : Node) :
    Prop :=
  Yields ((steps target).foldlM (perform c q m) w) fun v =>
    Walk.found <$> (steps iter).foldlM (perform c q m) v =
      Walk.found <$> (steps iter).foldlM (perform c q m) { v with scopes := w.scopes }

/-- A walk beside the same walk without what has been bound in its innermost scope. -/
theorem Leaves.differ {names : List String} {w v : Walk} (h : Leaves names w v) :
    Differ (fun _ => []) names v { v with scopes := w.scopes } where
  classes := rfl
  found := rfl
  scopes n := .around h.kinds (h.view n)

/-- **What a loop goes through is met in the former scopes**, where the target binds no name that is
looked up in it. The body of the loop comes after both. -/
theorem goesThroughFormer_of_notMem (p : Place) (async : Bool) (target iter : Node)
    (body orElse : List Node)
    (hother : ∀ n ∈ askedOutside (fun _ => []) (steps iter), n ∉ boundAt 0 (steps target))
    (c : Codebase) (q : Questions) (m : Nat) (w : Walk) :
    (steps (.loop p async target iter body orElse)).foldlM (perform c q m) w =
        (do let v ← (steps target).foldlM (perform c q m) w
            let u ← (steps iter).foldlM (perform c q m) v
            (stepsAll body ++ stepsAll orElse).foldlM (perform c q m) u) ∧
      GoesThroughFormer c q m w target iter := by
  constructor
  · rw [steps, List.append_assoc, List.append_assoc, List.foldlM_append]
    refine bind_congr fun v => ?_
    rw [List.foldlM_append]
  · intro s v s' hv
    have hleaves : Leaves (boundAt 0 (steps target)) w v := (balanced_steps target).leaves w s v s' hv
    exact (hleaves.differ.foldlM hother).map_eq fun u u' hu => hu.found

/-- A name of the target may be that of a comprehension in what the loop goes through. -/
theorem goesThroughFormer_comprehension :
    let c := Codebase.ofModules [extractModule (readModule "m"
      "class Node:\n    def parent(self) -> 'Node':\n        return self\n")]
    let w : Walk := { scopes := [⟨.function, [("top", .instanceOf ⟨0, ⟨0, 0⟩⟩)]⟩] }
    let p : Place := ⟨4, 4, 4⟩
    let target : Node := .name p "node" .store
    let iter : Node := .comprehension p .list [parentCall p "node" []]
      [.generator target (parentCall p "top" []) []]
    (∀ n ∈ askedOutside (fun _ => []) (steps iter), n ∉ boundAt 0 (steps target)) ∧
      GoesThroughFormer c c.ask 0 w target iter ∧
      ((Walk.found <$> (steps (.loop p false target iter [] [])).foldlM
        (perform c c.ask 0) w).run []).1.toOption = some [("p/m:Node.parent#method", 4)] := by
  intro c w p target iter
  have hother : ∀ n ∈ askedOutside (fun _ => []) (steps iter), n ∉ boundAt 0 (steps target) := by
    decide +kernel
  have hloop := goesThroughFormer_of_notMem p false target iter [] [] hother c c.ask 0 w
  exact ⟨hother, hloop.2, by decide +kernel⟩

/-- In `for node in node.parent()` the call of a method of the former node is not recorded. -/
theorem not_always_in_former_scopes :
    ¬ ∀ (source : SourceModule) (front back : List Step) (p : Place) (async : Bool)
      (target iter : Node) (body orElse : List Node),
      let c := Codebase.ofModules [extractModule source]
      stepsAll source.body = front ++ steps (.loop p async target iter body orElse) ++ back →
        Yields (front.foldlM (perform c c.ask 0) {}) fun w =>
          GoesThroughFormer c c.ask 0 w target iter := by
  intro h
  let source := readModule "m" <|
    "class Node:\n    def parent(self) -> 'Node':\n        return self\n" ++
    "def walk(node: Node):\n    for node in node.parent():\n        pass\n"
  let c := Codebase.ofModules [extractModule source]
  let target : Node := .name ⟨4, 8, 4⟩ "node" .store
  let iter := parentCall ⟨4, 16, 4⟩ "node" []
  let loop : Node := .loop ⟨4, 4, 5⟩ false target iter [] []
  let front := (stepsAll source.body).take 7
  have hsteps : stepsAll source.body = front ++ steps loop ++ (stepsAll source.body).drop 11 := by
    decide +kernel
  have hdiffer : ((do
      let w ← front.foldlM (perform c c.ask 0) {}
      let v ← (steps target).foldlM (perform c c.ask 0) w
      Walk.found <$> (steps iter).foldlM (perform c c.ask 0) v).run []).1.toOption ≠
    ((do
      let w ← front.foldlM (perform c c.ask 0) {}
      let v ← (steps target).foldlM (perform c c.ask 0) w
      Walk.found <$> (steps iter).foldlM (perform c c.ask 0)
        { v with scopes := w.scopes }).run []).1.toOption := by
    decide +kernel
  refine hdiffer (congrArg (fun x : Resolve _ => (x.run []).1.toOption) (Yields.bind_congr ?_))
  intro s w s' hw
  exact Yields.bind_congr (h source front _ _ _ target iter _ _ hsteps s w s' hw)

end Concordance.Binding
