import Concordance.Cancellation

/-!
# Work that nothing calls off

Looks at a meter without a limit pass, and leave it without one. So the outcome of work under such a
meter is put together from the outcomes of its parts, whatever the number of looks.

## Main definitions

* `Metered.Ends`: the outcome that work has if nothing calls it off

## Main results

* `Metered.Ends.bind`, `Metered.Ends.bind_error`: the outcome of work after work
-/

namespace Concordance.Metered

variable {σ α β : Type}

/-- Work ends in an outcome if nothing calls it off, whatever state it is in. -/
def Ends (work : Metered σ α) (r : Except Failure α) : Prop :=
  ∀ m s, m.limit = none → (work.runFrom m s).1 = r ∧ (work.runFrom m s).2.1.limit = none

theorem runFrom_bind (work : Metered σ α) (f : α → Metered σ β) (m : Meter) (s : σ) :
    (work >>= f).runFrom m s =
      match work.runFrom m s with
      | (.ok a, m', s') => (f a).runFrom m' s'
      | (.error e, m', s') => (.error e, m', s') := by
  show ExceptT.bindCont f (work.runFrom m s).1 (work.runFrom m s).2 = _
  rcases work.runFrom m s with ⟨_ | _, _, _⟩ <;> rfl

theorem ends_pure (a : α) : Ends (pure a : Metered σ α) (.ok a) := fun _ _ hm => ⟨rfl, hm⟩

theorem ends_throw (e : Failure) : Ends (throw e : Metered σ α) (.error e) :=
  fun _ _ hm => ⟨rfl, hm⟩

theorem runFrom_checkpoint (m : Meter) (s : σ) :
    (checkpoint : Metered σ Unit).runFrom m s =
      (if m.passes then .ok () else .error (.cancelled m.reason),
        { m with looks := m.looks + 1 }, s) := by
  show (if m.passes then pure () else throw (.cancelled m.reason) : Metered σ Unit).runFrom
    { m with looks := m.looks + 1 } s = _
  cases m.passes <;> rfl

/-- A look at a meter without a limit passes. -/
theorem ends_checkpoint : Ends (checkpoint : Metered σ Unit) (.ok ()) := by
  intro m s hm
  have hpasses : m.passes = true := by rw [Meter.passes, hm]
  rw [runFrom_checkpoint, hpasses]
  exact ⟨rfl, hm⟩

theorem Ends.bind {work : Metered σ α} {f : α → Metered σ β} {a : α} {r : Except Failure β}
    (hwork : work.Ends (.ok a)) (hf : (f a).Ends r) : (work >>= f).Ends r := by
  intro m s hm
  obtain ⟨hok, hlimit⟩ := hwork m s hm
  rw [runFrom_bind]
  generalize work.runFrom m s = ran at hok hlimit ⊢
  obtain ⟨_, m', s'⟩ := ran
  cases hok
  exact hf m' s' hlimit

theorem Ends.bind_error {work : Metered σ α} {f : α → Metered σ β} {e : Failure}
    (hwork : work.Ends (.error e)) : (work >>= f).Ends (.error e) := by
  intro m s hm
  obtain ⟨herror, hlimit⟩ := hwork m s hm
  rw [runFrom_bind]
  generalize work.runFrom m s = ran at herror hlimit ⊢
  obtain ⟨_, m', s'⟩ := ran
  cases herror
  exact ⟨rfl, hlimit⟩

/-- Work after work ends as their outcomes do after each other. -/
theorem Ends.andThen {work : Metered σ α} {f : α → Metered σ β} {r : Except Failure α}
    {g : α → Except Failure β} (hwork : work.Ends r) (hf : ∀ a, r = .ok a → (f a).Ends (g a)) :
    (work >>= f).Ends (r >>= g) := by
  cases r with
  | error e => exact hwork.bind_error
  | ok a => exact hwork.bind (hf a rfl)

theorem Ends.map {work : Metered σ α} {a : α} (hwork : work.Ends (.ok a)) (f : α → β) :
    (f <$> work).Ends (.ok (f a)) := by
  rw [map_eq_pure_bind]
  exact hwork.bind (ends_pure (f a))

/-- Work on each of some values that does not fail ends in all of its results. -/
theorem Ends.mapM {work : α → Metered σ β} {f : α → β} {l : List α}
    (h : ∀ a ∈ l, (work a).Ends (.ok (f a))) : (l.mapM work).Ends (.ok (l.map f)) := by
  induction l with
  | nil => exact ends_pure []
  | cons a l ih =>
    rw [List.mapM_cons]
    refine (h a List.mem_cons_self).bind ?_
    exact (ih fun b hb => h b (List.mem_cons_of_mem _ hb)).bind (ends_pure (f a :: l.map f))

/-- Work on values one after the other that does not fail ends in what it makes of all of them. -/
theorem Ends.foldlM {work : β → α → Metered σ β} {f : β → α → β}
    (h : ∀ b a, (work b a).Ends (.ok (f b a))) (l : List α) (b : β) :
    (l.foldlM work b).Ends (.ok (l.foldl f b)) := by
  induction l generalizing b with
  | nil => exact ends_pure b
  | cons a l ih =>
    rw [List.foldlM_cons]
    exact (h b a).bind (ih (f b a))

/-- Work has one outcome. -/
theorem Ends.unique {work : Metered σ α} {r r' : Except Failure α} (h : work.Ends r)
    (h' : work.Ends r') [Nonempty σ] : r = r' := by
  obtain ⟨s⟩ := ‹Nonempty σ›
  exact (h {} s rfl).1.symm.trans (h' {} s rfl).1

end Concordance.Metered
