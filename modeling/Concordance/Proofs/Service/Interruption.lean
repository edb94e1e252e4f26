import Concordance.Proofs.Query.Answering
import Concordance.Proofs.Query.Interruption
import Concordance.Proofs.Workspace.Interruption

/-!
# All or nothing

Both kinds of work that requests start look at a meter: loading a graph, and answering a query on
it. In either case calling the work off leads to no answer, never to a part of one.

## Main results

* `limit_all_or_nothing`: what limits make of queries and loads
-/

namespace Concordance.Service

open Metered Query

variable {σ τ : Type}

/-- **A query or a load that is called off has no answer, and otherwise the whole answer.** On any
graph, with any search that fails at a look that does not pass, and however many looks may pass:

* a query has the answer that it has without a limit, or fails for being called off; if it has an
  answer, then so it does with any higher limit; and the ids searched so far are the first of those
  that are searched without a limit;
* keeping note of these ids changes nothing;
* however many workers look up types, and in whatever order they look at the meter, it comes to the
  same;
* the same holds of the load of any workspace, which leaves the state as it is.
-/
theorem limit_all_or_nothing {search : Search σ} {g : Graph}
    (hsearch : ∀ s, Interruptible (fun _ _ => True) (search g s)) (f : Filter)
    (kind : Option MemberKind) :
    (∀ e, AllOrNothing NotedFirst (answer (noting search) g f kind) (e, [])) ∧
    (Notes (answer (noting search) g f kind) (answer search g f kind) ∧
      ∀ e, AllOrNothing (fun _ _ => True) (answer search g f kind) e) ∧
    (∀ (workers : Lookup) (m : Meter), (∃ r m', workers.GathersUnder g f.typeName m r m') ∧
      ∀ r m', workers.GathersUnder g f.typeName m r m' → ∀ e : σ,
        ((typesOfProjects f.typeName g.projects).runFrom m e).1 = r.map List.flatten ∧
        ∀ found, r = .ok found →
          ((typesOfProjects f.typeName g.projects).runFrom m e).2.1 = m') ∧
    ∀ (tree : Entry) (limits : LoadLimits) (root : String) (s : τ),
      AllOrNothing Eq (loadGraph tree limits root) s := by
  refine ⟨fun e => ?_, ⟨notes_answer search g f kind, fun e => ?_⟩, fun workers m => ?_,
    fun tree limits root s => ?_⟩
  · exact (interruptible_answer (fun s => interruptible_noting (hsearch s)) f kind).allOrNothing _
  · exact (interruptible_answer hsearch f kind).allOrNothing e
  · exact ⟨workers.exists_gathersUnder g f.typeName m, fun _ _ hr e =>
      runFrom_typesOfProjects hr e⟩
  · exact (plain_loadGraph tree limits root).interruptible.allOrNothing s

/-- Asks for the property `size` of types called `node`. -/
def sizeOfNodes : Filter := { typeName := "NODE", memberName := some "size" }

/-- The query takes twelve looks: one at first, two for the projects, and three for each of the
accessors of the properties. -/
theorem limit_all_or_nothing_workshop :
    let work : Metered (Unit × List String) (List Row) :=
      answer (noting indexed) workshop sizeOfNodes (some .property)
    let run (n : Nat) := work.runFrom { limit := some n, reason := "gone" } ((), [])
    (∀ s, Interruptible (fun (_ _ : Unit) => True) (indexed workshop s)) ∧
    (∀ n, 12 ≤ n → (run n).1 = .ok [⟨"p:size.get", "/b", 7⟩, ⟨"p:size.set", "/a", 3⟩,
      ⟨"p:size.set", "/b", 7⟩, ⟨"q:size.get", "/a", 1⟩]) ∧
    (∀ n < 12, (run n).1 = .error (.cancelled "gone")) ∧
    ∀ n, (run n).2.2.2 <+: ["p:size.get", "p:size.set", "q:size.get"] := by
  intro work run
  have hsearch : ∀ s, Interruptible (fun (_ _ : Unit) => True) (indexed workshop s) :=
    interruptible_indexed workshop
  have hrun : AllOrNothing NotedFirst work ((), []) :=
    (limit_all_or_nothing (τ := Unit) hsearch sizeOfNodes (some .property)).1 ()
  have hlooks : (work.runFrom {} ((), [])).2.1.looks = 12 := by decide +kernel
  have hids : (work.runFrom {} ((), [])).2.2.2 = ["p:size.get", "p:size.set", "q:size.get"] := by
    decide +kernel
  have hrows : (work.runFrom {} ((), [])).1 = .ok (Row.sort [⟨"q:size.get", "/a", 1⟩,
      ⟨"p:size.set", "/a", 3⟩, ⟨"p:size.set", "/b", 7⟩, ⟨"p:size.get", "/b", 7⟩]) := by rfl
  refine ⟨hsearch, fun n hn => ?_, fun n hn => ?_, fun n => ?_⟩
  · refine ((hrun.enough n "gone" (hlooks.trans_le hn)).1.trans hrows).trans ?_
    rw [Row.sort_eq]
    decide +kernel
  · exact hrun.fewer n "gone" (hn.trans_eq hlooks.symm)
  · rw [← hids]
    exact hrun.sofar n "gone"

end Concordance.Service
