import Concordance.Proofs.Query.MeteredPool
import Concordance.Query.Answer

/-!
# Queries that are called off

A query looks at the meter before the types are looked up, once for each project, before each symbol
is searched, and as often as the search does. None of these looks is in a place where its failure is
seen by the query itself, and the symbols are searched in one order. So a query that is called off
has no rows, and has searched the symbols that it would have searched first.

Of the search it has to be assumed that it does with a look that does not pass what the query does,
which is to fail. A search that goes on with what it has would make partial rows of it.

## Main definitions

* `noting`: a search that keeps note of what it is asked for

## Main results

* `plain_meant`: looking symbols up
* `interruptible_answer`: a query takes a number of looks if searches do
* `notes_answer`: keeping note of what is searched changes nothing
-/

namespace Concordance.Query

open Metered

variable {σ : Type} {before : σ → σ → Prop} {search : Search σ} {g : Graph}

/-! ### Looking symbols up -/

/-- Looking up the types of some projects takes a look for each of them. -/
theorem takes_typesOfProjects [IsPreorder σ before] (typeName : String) (projects : List Project)
    (s : σ) :
    Takes before (typesOfProjects typeName projects) s projects.length
      (.ok (projects.flatMap fun p => typesIn p typeName)) s := by
  induction projects with
  | nil => exact takes_pure [] s
  | cons p rest ih =>
    have hrest : Takes before (typesOfProjects typeName rest >>= fun others =>
        pure (typesIn p typeName ++ others)) s rest.length
        (.ok ((p :: rest).flatMap fun p => typesIn p typeName)) s :=
      ih.bind (l := 0) (takes_pure _ s)
    rw [List.length_cons, Nat.add_comm]
    exact (takes_checkpoint s).bind hrest

theorem plain_typesOfProjects (typeName : String) (projects : List Project) :
    Plain fun σ => (typesOfProjects typeName projects : Metered σ (List Symbol)) :=
  ⟨projects.length, _, fun _ s => takes_typesOfProjects typeName projects s⟩

/-- What workers gather under a meter is what looking into the projects one after the other comes
to under it; and if that is not a failure, both leave the same of the meter. -/
theorem runFrom_typesOfProjects {workers : Lookup} {typeName : String} {m m' : Meter}
    {r : Except Failure (List (List Symbol))} (hr : workers.GathersUnder g typeName m r m') (e : σ) :
    ((typesOfProjects typeName g.projects).runFrom m e).1 = r.map List.flatten ∧
      ∀ found, r = .ok found → ((typesOfProjects typeName g.projects).runFrom m e).2.1 = m' := by
  have htakes : Takes Eq _ e _ _ e := takes_typesOfProjects typeName g.projects e
  rcases hr.eq with ⟨hallows, rfl, rfl⟩ | ⟨hstops, rfl⟩
  · rw [htakes.whole m hallows]
    exact ⟨rfl, fun _ _ => rfl⟩
  · obtain ⟨_, _, hran, -⟩ := htakes.short m hstops
    rw [hran]
    exact ⟨rfl, nofun⟩

theorem plain_resolveTypes (g : Graph) (typeName : String) (home : Option String) :
    Plain fun σ => (resolveTypes g typeName home : Metered σ (List Symbol)) := by
  unfold resolveTypes
  by_cases hblank : Text.isBlankText typeName = true
  case' pos =>
    -- what would come after the failure is the same as without it
    simp only [if_pos hblank]
    refine (plain_throw _).bind fun _ => ?_
  case' neg => simp only [if_neg hblank]
  all_goals
    refine plain_checkpoint.bind fun _ =>
      (plain_typesOfProjects typeName g.projects).bind fun types => ?_
    cases home with
    | none => exact plain_pure _
    | some h =>
      dsimp only
      split
      · exact plain_pure _
      · exact plain_pure _

/-- Looking up the symbols of a query takes the same number of looks on any kind of state. -/
theorem plain_meant (g : Graph) (f : Filter) (kind : Option MemberKind) :
    Plain fun σ => (meant g f kind : Metered σ (List Symbol)) := by
  refine (plain_resolveTypes g f.typeName f.home).bind fun types => ?_
  cases kind with
  | none => exact plain_pure _
  | some k =>
    dsimp only
    split
    · exact plain_pure _
    · cases resolveMembers types k f.memberName (some f.accessors.name) with
      | ok members => exact plain_pure _
      | error e => exact plain_throw _

/-! ### Searching -/

section

variable [IsPreorder σ before]

theorem interruptible_searchAll (hsearch : ∀ s, Interruptible before (search g s))
    (symbols : List Symbol) (acc : List RowKey × List Row) :
    Interruptible before (searchAll search g symbols acc) := by
  induction symbols generalizing acc with
  | nil => exact interruptible_pure acc.2
  | cons s rest ih =>
    exact interruptible_checkpoint.bind fun _ => (hsearch s).bind fun locations => ih _

/-- A query takes a number of looks if the searches for symbols do. -/
theorem interruptible_answer (hsearch : ∀ s, Interruptible before (search g s)) (f : Filter)
    (kind : Option MemberKind) : Interruptible before (answer search g f kind) := by
  refine (plain_meant g f kind).interruptible.bind fun symbols => ?_
  split
  · exact interruptible_pure []
  · exact (interruptible_searchAll hsearch _ _).bind fun rows => interruptible_pure (Row.sort rows)

end

/-! ### Keeping note of what is searched -/

/-- A search that keeps note, in order, of the ids that it is asked for. -/
def noting (search : Search σ) : Search (σ × List String) := fun g s => ExceptT.mk fun (m, e, ids) =>
  let (r, m, e) := (search g s).runFrom m e
  (r, m, e, ids ++ [s.id])

theorem runFrom_noting (s : Symbol) (m : Meter) (e : σ) (ids : List String) :
    (noting search g s).runFrom m (e, ids) =
      (((search g s).runFrom m e).1, ((search g s).runFrom m e).2.1,
        ((search g s).runFrom m e).2.2, ids ++ [s.id]) := rfl

/-- The ids noted so far come first among those that are noted later. -/
def NotedFirst (a b : σ × List String) : Prop := a.2 <+: b.2

instance : IsPreorder (σ × List String) NotedFirst where
  refl a := List.prefix_refl a.2
  trans _ _ _ h h' := List.IsPrefix.trans h h'

/-- An id is noted whether or not its search is called off. -/
theorem interruptible_noting {s : Symbol}
    (hsearch : Interruptible (fun _ _ => True) (search g s)) :
    Interruptible NotedFirst (noting search g s) := by
  rintro ⟨e, ids⟩
  obtain ⟨k, r, e', h⟩ := hsearch e
  refine ⟨k, r, (e', ids ++ [s.id]), List.prefix_append ids [s.id], fun m hm => ?_, fun m hm => ?_⟩
  · rw [runFrom_noting, h.whole m hm]
  · obtain ⟨m', t, hran, -⟩ := h.short m hm
    refine ⟨m', (t, ids ++ [s.id]), ?_, List.prefix_refl _⟩
    rw [runFrom_noting, hran]

theorem notes_noting (s : Symbol) : Notes (noting search g s) (search g s) :=
  fun _ _ ids => ⟨_, ids ++ [s.id], rfl, fun _ _ => rfl⟩

theorem notes_searchAll (symbols : List Symbol) (acc : List RowKey × List Row) :
    Notes (searchAll (noting search) g symbols acc) (searchAll search g symbols acc) := by
  induction symbols generalizing acc with
  | nil => exact notes_pure acc.2
  | cons s rest ih =>
    exact plain_checkpoint.notes.bind fun _ => (notes_noting s).bind fun locations => ih _

/-- Keeping note of what is searched changes nothing about a query. -/
theorem notes_answer (search : Search σ) (g : Graph) (f : Filter) (kind : Option MemberKind) :
    Notes (answer (noting search) g f kind) (answer search g f kind) := by
  refine (plain_meant g f kind).notes.bind fun symbols => ?_
  split
  · exact notes_pure []
  · exact (notes_searchAll _ _).bind fun rows => notes_pure (Row.sort rows)

/-! ### The search in the references of a graph -/

theorem plain_lookUp (id : String) (indices : List ReferenceIndex) :
    Plain fun σ => (lookUp id indices : Metered σ (List Location)) := by
  induction indices with
  | nil => exact plain_pure []
  | cons ix rest ih => exact plain_checkpoint.bind fun _ => ih.bind fun _ => plain_pure _

/-- The search in the references of a graph fails at a look that does not pass. -/
theorem interruptible_indexed [IsPreorder σ before] (g : Graph) (s : Symbol) :
    Interruptible before (indexed g s) :=
  (plain_lookUp s.id g.references).interruptible

end Concordance.Query
