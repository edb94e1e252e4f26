import Concordance.Proofs.Query.Answering
import Concordance.Proofs.Query.Interruption

/-!
# What a query fails with

The arguments of a query are looked at in more than one place: a type name and a member name once
more when symbols are looked up, the accessors once more for properties, and types and properties
are checked to be such before they are asked for what they hold. After the first check none of the
others fails. So a query that is asked fails only if it is called off or because a search fails.

A limit on the looks at a meter can end the work that looks symbols up, but it cannot change what
the work finds. That is said once, as `Steadfast`, so that the outcome without a limit, which is
known, also settles what can happen under one.

## Main definitions

* `Metered.Steadfast`: work that a limit on its looks can end but not change

## Main results

* `Interruptible.steadfast`, `Plain.steadfast`: which work is such work
* `searchAll_error`: searching symbols fails with the look or the search that failed
* `answer_error`, `answer_error_uncalled`: what a query fails with, with and without being called
  off
-/

namespace Concordance.Metered

variable {σ α β : Type}

/-- The meter without its limit. -/
def unlimited (m : Meter) : Meter := { m with limit := none }

/-- A limit on the looks can end the work, with the failure of being called off; otherwise it makes
no difference. -/
def Steadfast (work : Metered σ α) : Prop :=
  ∀ m s, (∃ reason, (work.runFrom m s).1 = .error (.cancelled reason)) ∨
    work.runFrom (unlimited m) s =
      ((work.runFrom m s).1, unlimited (work.runFrom m s).2.1, (work.runFrom m s).2.2)

/-- A limit calls work that takes a number of looks off, or makes no difference to it. -/
theorem Interruptible.steadfast {before : σ → σ → Prop} {work : Metered σ α}
    (h : Interruptible before work) : Steadfast work := by
  intro m s
  obtain ⟨k, r, s', htakes⟩ := h s
  by_cases hm : m.Allows k
  · rw [htakes.whole m hm, htakes.whole (unlimited m) (Meter.allows_of_limit_eq_none rfl k)]
    exact .inr rfl
  · obtain ⟨m', t, hran, -⟩ := htakes.short m hm
    exact .inl ⟨m.reason, by rw [hran]⟩

theorem Plain.steadfast {work : ∀ σ, Metered σ α} (h : Plain work) : Steadfast (work σ) :=
  have hwork : Interruptible Eq (work σ) := h.interruptible
  hwork.steadfast

/-- Work that a limit cannot change has, under any, the outcome that it has without one, unless it
is called off. -/
theorem Steadfast.outcome {work : Metered σ α} (hwork : work.Steadfast) {r : Except Failure α}
    (hends : work.Ends r) (m : Meter) (s : σ) :
    (∃ reason, (work.runFrom m s).1 = .error (.cancelled reason)) ∨ (work.runFrom m s).1 = r := by
  refine (hwork m s).imp_right fun h => ?_
  rw [← (hends (unlimited m) s rfl).1, h]

end Concordance.Metered

namespace Concordance.Query

open Metered

variable {σ : Type} {g : Graph} {f : Filter} {kind : Option MemberKind} {search : Search σ}

/-! ### Searching -/

/-- Searching symbols one after the other fails with a look at the meter that does not pass or with
a search that fails. What holds of the meter at the start, and is kept by looks and searches, holds
there. -/
theorem searchAll_error {I : Meter → Prop} (hlook : ∀ m, I m → I { m with looks := m.looks + 1 })
    (hsearch : ∀ s m e, I m → I ((search g s).runFrom m e).2.1) {symbols : List Symbol}
    {acc : List RowKey × List Row} {m : Meter} {e : σ} {failure : Failure} (hm : I m)
    (h : ((searchAll search g symbols acc).runFrom m e).1 = .error failure) :
    (∃ m', I m' ∧ m'.passes = false ∧ failure = .cancelled m'.reason) ∨
      ∃ s ∈ symbols, ∃ m' e', I m' ∧ ((search g s).runFrom m' e').1 = .error failure := by
  induction symbols generalizing acc m e with
  | nil => cases h
  | cons s rest ih =>
    have hlooked := hlook m hm
    rw [searchAll, runFrom_bind, runFrom_checkpoint] at h
    cases hpasses : m.passes with
    | false =>
      rw [hpasses] at h
      cases h
      exact .inl ⟨m, hm, hpasses, rfl⟩
    | true =>
      rw [hpasses, if_pos rfl] at h
      dsimp only at h
      rw [runFrom_bind] at h
      have hkept := hsearch s { m with looks := m.looks + 1 } e hlooked
      cases hran : (search g s).runFrom { m with looks := m.looks + 1 } e with
      | mk result left =>
        rw [hran] at h hkept
        cases result with
        | error f =>
          cases h
          exact .inr ⟨s, List.mem_cons_self, _, e, hlooked, by rw [hran]⟩
        | ok locations =>
          refine (ih hkept h).imp_right ?_
          rintro ⟨s', hs', hfails⟩
          exact ⟨s', List.mem_cons_of_mem s hs', hfails⟩

/-- Aggregating symbols fails as searching them does. -/
theorem aggregate_error {I : Meter → Prop} (hlook : ∀ m, I m → I { m with looks := m.looks + 1 })
    (hsearch : ∀ s m e, I m → I ((search g s).runFrom m e).2.1) {symbols : List Symbol}
    (hids : (symbols.map Symbol.id).Nodup) {m : Meter} {e : σ} {failure : Failure} (hm : I m)
    (h : ((aggregate search g symbols).runFrom m e).1 = .error failure) :
    (∃ m', I m' ∧ m'.passes = false ∧ failure = .cancelled m'.reason) ∨
      ∃ s ∈ symbols, ∃ m' e', I m' ∧ ((search g s).runFrom m' e').1 = .error failure := by
  rw [aggregate, distinct_eq, firstOfEach_eq_self hids, runFrom_bind] at h
  refine searchAll_error hlook hsearch hm
    (?_ : ((searchAll search g symbols ([], [])).runFrom m e).1 = .error failure)
  cases hran : (searchAll search g symbols ([], [])).runFrom m e with
  | mk result left =>
    rw [hran] at h
    cases result with
    | ok rows => cases h
    | error f => exact h

/-! ### Queries -/

/-- After looking symbols up without being called off, a query goes on with those that it names. -/
theorem runFrom_answer_of_meant {m m' : Meter} {e e' : σ}
    (h : (meant g f kind).runFrom m e = (.ok (symbolsNamed g f kind), m', e')) :
    (answer search g f kind).runFrom m e =
      if (symbolsNamed g f kind).isEmpty then (.ok [], m', e')
      else (aggregate search g (symbolsNamed g f kind)).runFrom m' e' := by
  rw [answer, runFrom_bind, h]
  dsimp only
  split
  · rfl
  · rfl

/-- **No later check fails.** A query that is asked fails, on any graph and however it is called
off, by being called off or as the search for a symbol that it names fails. -/
theorem answer_error (hvalid : f.Valid kind) {m : Meter} {e : σ} {failure : Failure}
    (h : ((answer search g f kind).runFrom m e).1 = .error failure) :
    (∃ reason, failure = .cancelled reason) ∨
      ∃ s ∈ symbolsNamed g f kind, ∃ m' e', ((search g s).runFrom m' e').1 = .error failure := by
  cases hran : (meant g f kind : Metered σ (List Symbol)).runFrom m e with
  | mk result left =>
    rcases (plain_meant g f kind).steadfast.outcome (meant_ends hvalid) m e with ⟨reason, hoff⟩ | hok
    · rw [hran] at hoff
      cases hoff
      rw [answer, runFrom_bind, hran] at h
      cases h
      exact .inl ⟨reason, rfl⟩
    · rw [hran] at hok
      cases hok
      rw [runFrom_answer_of_meant hran] at h
      split at h
      · cases h
      · refine (aggregate_error (I := fun _ => True) (fun _ _ => trivial) (fun _ _ _ _ => trivial)
          (nodup_symbolsNamed g f kind) trivial h).imp ?_ ?_
        · rintro ⟨m', -, -, rfl⟩
          exact ⟨m'.reason, rfl⟩
        · rintro ⟨s, hs, m', e', -, hfails⟩
          exact ⟨s, hs, m', e', hfails⟩

/-- A query that nothing calls off fails only as the search for a symbol that it names fails when
nothing calls that off. -/
theorem answer_error_uncalled (hvalid : f.Valid kind)
    (hsearch : ∀ s m e, m.limit = none → ((search g s).runFrom m e).2.1.limit = none) {m : Meter}
    (hm : m.limit = none) {e : σ} {failure : Failure}
    (h : ((answer search g f kind).runFrom m e).1 = .error failure) :
    ∃ s ∈ symbolsNamed g f kind, ∃ m' e', m'.limit = none ∧
      ((search g s).runFrom m' e').1 = .error failure := by
  obtain ⟨hok, hlimit⟩ := meant_ends (g := g) hvalid m e hm
  cases hran : (meant g f kind : Metered σ (List Symbol)).runFrom m e with
  | mk result left =>
    rw [hran] at hok hlimit
    cases hok
    rw [runFrom_answer_of_meant hran] at h
    split at h
    · cases h
    · refine (aggregate_error (I := fun m => m.limit = none) (fun _ h => h) hsearch
        (nodup_symbolsNamed g f kind) hlimit h).resolve_left ?_
      rintro ⟨m', hm', hpasses, -⟩
      rw [Meter.passes, hm'] at hpasses
      cases hpasses

end Concordance.Query
