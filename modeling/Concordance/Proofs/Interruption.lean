import Concordance.Proofs.Metered
import Mathlib.Order.Defs.Unbundled

/-!
# Work that is called off on its way

A meter with a limit lets a number of looks pass and calls the work off at the next one. How many
looks a piece of work takes from a state, and what it comes to, does not depend on the meter as long
as all of them pass. If one does not, the work fails, and nobody who called it can tell how far it
was. So a limit is all or nothing: the outcome is the one without a limit, or it is the failure of
being called off.

That is a law of how work is put together. It holds of a look, and of work after work; it does not
hold of work that sees the failure of a part and goes on. So of whatever runs under a meter it is
enough to know that of its parts.

The state that work leaves when it is called off is one that it would have come by otherwise. What
that means depends on what a state keeps, and is a preorder here.

## Main definitions

* `Meter.after`, `Meter.Allows`: looks that pass
* `Metered.Takes`: the looks that work takes from a state, and what it comes to
* `Metered.Interruptible`: work that has such a number from every state
* `Metered.Plain`: work to which its state is of no concern
* `Metered.AllOrNothing`: what limits make of work from a state

## Main results

* `Takes.bind`, `Takes.bind_error`: work after work
* `Interruptible.allOrNothing`: a limit is all or nothing
-/

namespace Concordance

namespace Meter

/-! ### Looks that pass -/

/-- The meter after some looks. -/
def after (m : Meter) (k : Nat) : Meter := { m with looks := m.looks + k }

/-- The next `k` looks pass. -/
def Allows (m : Meter) (k : Nat) : Prop := ∀ i < k, (m.after i).passes = true

theorem after_after (m : Meter) (k l : Nat) : (m.after k).after l = m.after (k + l) := by
  rw [after, after, after, Nat.add_assoc]

theorem allows_zero (m : Meter) : m.Allows 0 := fun i hi => absurd hi (Nat.not_lt_zero i)

theorem allows_one {m : Meter} : m.Allows 1 ↔ m.passes = true :=
  ⟨fun h => h 0 Nat.one_pos, fun h i hi => by rwa [Nat.lt_one_iff.mp hi]⟩

theorem allows_add {m : Meter} {k l : Nat} :
    m.Allows (k + l) ↔ m.Allows k ∧ (m.after k).Allows l := by
  constructor
  · refine fun h => ⟨fun i hi => h i (by omega), fun i hi => ?_⟩
    rw [after_after]
    exact h (k + i) (by omega)
  · rintro ⟨hk, hl⟩ i hi
    by_cases hik : i < k
    · exact hk i hik
    · have h := hl (i - k) (by omega)
      rwa [after_after, show k + (i - k) = i by omega] at h

/-- Without a limit all looks pass. -/
theorem allows_of_limit_eq_none {m : Meter} (h : m.limit = none) (k : Nat) : m.Allows k := by
  intro i _
  rw [passes, after, h]

/-- With a limit that many looks pass. -/
theorem allows_limit {n k : Nat} (reason : String) :
    ({ limit := some n, reason } : Meter).Allows k ↔ k ≤ n := by
  have hpasses : ∀ i, (({ limit := some n, reason } : Meter).after i).passes = true ↔ i < n :=
    fun i => by simp [passes, after]
  refine ⟨fun h => Nat.le_of_not_lt fun hnk => ?_, fun h i hi => (hpasses i).mpr (by omega)⟩
  exact Nat.lt_irrefl n ((hpasses n).mp (h n hnk))

end Meter

namespace Metered

variable {σ τ α β : Type} {before : σ → σ → Prop}

/-- Nothing is said about the state that work leaves. -/
instance : IsPreorder σ fun _ _ => True where
  refl _ := trivial
  trans _ _ _ _ _ := trivial

/-! ### From a state -/

/-- From a state, work takes `k` looks and comes to an outcome and another state. Under a meter that
does not let that many pass it is called off, and leaves a state before that one. -/
structure Takes (before : σ → σ → Prop) (work : Metered σ α) (s : σ) (k : Nat)
    (r : Except Failure α) (s' : σ) : Prop where
  forth : before s s'
  whole : ∀ m : Meter, m.Allows k → work.runFrom m s = (r, m.after k, s')
  short : ∀ m : Meter, ¬ m.Allows k →
    ∃ m' t, work.runFrom m s = (.error (.cancelled m.reason), m', t) ∧ before t s'

section

variable [IsPreorder σ before]

theorem takes_pure (a : α) (s : σ) : Takes before (pure a) s 0 (.ok a) s :=
  ⟨refl_of before s, fun _ _ => rfl, fun m h => absurd m.allows_zero h⟩

theorem takes_throw (e : Failure) (s : σ) :
    Takes before (throw e : Metered σ α) s 0 (.error e) s :=
  ⟨refl_of before s, fun _ _ => rfl, fun m h => absurd m.allows_zero h⟩

theorem takes_checkpoint (s : σ) : Takes before checkpoint s 1 (.ok ()) s := by
  refine ⟨refl_of before s, fun m h => ?_, fun m h => ?_⟩
  · rw [runFrom_checkpoint, if_pos (Meter.allows_one.mp h)]
    rfl
  · rw [runFrom_checkpoint, if_neg fun hpasses => h (Meter.allows_one.mpr hpasses)]
    exact ⟨_, s, rfl, refl_of before s⟩

/-- Work after work takes the looks of both. -/
theorem Takes.bind {work : Metered σ α} {f : α → Metered σ β} {s s' s'' : σ} {k l : Nat} {a : α}
    {r : Except Failure β} (hwork : Takes before work s k (.ok a) s')
    (hf : Takes before (f a) s' l r s'') : Takes before (work >>= f) s (k + l) r s'' := by
  refine ⟨trans_of before hwork.forth hf.forth, fun m h => ?_, fun m h => ?_⟩
  · obtain ⟨hk, hl⟩ := Meter.allows_add.mp h
    rw [runFrom_bind, hwork.whole m hk]
    dsimp only
    rw [hf.whole _ hl, Meter.after_after]
  · rw [runFrom_bind]
    by_cases hk : m.Allows k
    · rw [hwork.whole m hk]
      exact hf.short _ fun hl => h (Meter.allows_add.mpr ⟨hk, hl⟩)
    · obtain ⟨m', t, hran, ht⟩ := hwork.short m hk
      rw [hran]
      exact ⟨m', t, rfl, trans_of before ht hf.forth⟩

omit [IsPreorder σ before] in
theorem Takes.bind_error {work : Metered σ α} {f : α → Metered σ β} {s s' : σ} {k : Nat}
    {e : Failure} (hwork : Takes before work s k (.error e) s') :
    Takes before (work >>= f) s k (.error e) s' := by
  refine ⟨hwork.forth, fun m h => ?_, fun m h => ?_⟩
  · rw [runFrom_bind, hwork.whole m h]
  · obtain ⟨m', t, hran, ht⟩ := hwork.short m h
    rw [runFrom_bind, hran]
    exact ⟨m', t, rfl, ht⟩

/-! ### From every state -/

omit [IsPreorder σ before] in
/-- From every state there is a number of looks that work takes. It is called off exactly by meters
that let fewer pass. -/
def Interruptible (before : σ → σ → Prop) (work : Metered σ α) : Prop :=
  ∀ s, ∃ k r s', Takes before work s k r s'

theorem interruptible_pure (a : α) : Interruptible before (pure a) :=
  fun s => ⟨0, .ok a, s, takes_pure a s⟩

theorem interruptible_checkpoint : Interruptible before checkpoint :=
  fun s => ⟨1, .ok (), s, takes_checkpoint s⟩

theorem Interruptible.bind {work : Metered σ α} {f : α → Metered σ β}
    (hwork : Interruptible before work) (hf : ∀ a, Interruptible before (f a)) :
    Interruptible before (work >>= f) := by
  intro s
  obtain ⟨k, r, s', hran⟩ := hwork s
  cases r with
  | error e => exact ⟨k, .error e, s', hran.bind_error⟩
  | ok a =>
    obtain ⟨l, r, s'', hrest⟩ := hf a s'
    exact ⟨k + l, r, s'', hran.bind hrest⟩

/-! ### Limits -/

omit [IsPreorder σ before] in
/-- A limit on the looks that work may take from a state is all or nothing: with it the work has the
outcome that it has without, or fails for being called off; and if it ends with an answer, then so
it does with any higher limit. In each case it leaves a state before the one that it leaves without
a limit. -/
structure AllOrNothing (before : σ → σ → Prop) (work : Metered σ α) (s : σ) : Prop where
  either : ∀ (n : Nat) (reason : String),
    (work.runFrom { limit := some n, reason } s).1 = (work.runFrom {} s).1 ∨
      (work.runFrom { limit := some n, reason } s).1 = .error (.cancelled reason)
  higher : ∀ (n n' : Nat) (reason : String), n ≤ n' → ∀ a,
    (work.runFrom { limit := some n, reason } s).1 = .ok a →
      (work.runFrom { limit := some n', reason } s).1 = .ok a
  sofar : ∀ (n : Nat) (reason : String),
    before (work.runFrom { limit := some n, reason } s).2.2 (work.runFrom {} s).2.2
  /-- With as many looks as the work takes there is no difference at all. -/
  enough : ∀ (n : Nat) (reason : String), (work.runFrom {} s).2.1.looks ≤ n →
    (work.runFrom { limit := some n, reason } s).1 = (work.runFrom {} s).1 ∧
      (work.runFrom { limit := some n, reason } s).2.2 = (work.runFrom {} s).2.2
  fewer : ∀ (n : Nat) (reason : String), n < (work.runFrom {} s).2.1.looks →
    (work.runFrom { limit := some n, reason } s).1 = .error (.cancelled reason)

/-- **A limit is all or nothing** for work that takes a number of looks. -/
theorem Interruptible.allOrNothing {work : Metered σ α} (h : Interruptible before work) (s : σ) :
    AllOrNothing before work s := by
  obtain ⟨k, r, s', htakes⟩ := h s
  have hwhole : work.runFrom {} s = (r, { looks := k }, s') := by
    rw [htakes.whole {} (Meter.allows_of_limit_eq_none rfl k), Meter.after, Nat.zero_add]
  have henough : ∀ n reason, k ≤ n → work.runFrom { limit := some n, reason } s =
      (r, ({ limit := some n, reason } : Meter).after k, s') := fun n reason hk =>
    htakes.whole _ ((Meter.allows_limit reason).mpr hk)
  have hshort : ∀ n reason, n < k → ∃ m' t,
      work.runFrom { limit := some n, reason } s = (.error (.cancelled reason), m', t) ∧
        before t s' := fun n reason hk =>
    htakes.short _ fun hallows => Nat.not_le_of_lt hk ((Meter.allows_limit reason).mp hallows)
  constructor
  case either =>
    intro n reason
    rw [hwhole]
    rcases Nat.lt_or_ge n k with hk | hk
    · obtain ⟨m', t, hran, -⟩ := hshort n reason hk
      exact .inr (by rw [hran])
    · exact .inl (by rw [henough n reason hk])
  case higher =>
    intro n n' reason hn a ha
    rcases Nat.lt_or_ge n k with hk | hk
    · obtain ⟨m', t, hran, -⟩ := hshort n reason hk
      rw [hran] at ha
      cases ha
    · rw [henough n reason hk] at ha
      rwa [henough n' reason (Nat.le_trans hk hn)]
  case sofar =>
    intro n reason
    rw [hwhole]
    rcases Nat.lt_or_ge n k with hk | hk
    · obtain ⟨m', t, hran, ht⟩ := hshort n reason hk
      rwa [hran]
    · rw [henough n reason hk]
      exact refl_of before s'
  case enough =>
    intro n reason hk
    rw [hwhole] at hk ⊢
    rw [henough n reason hk]
    exact ⟨rfl, rfl⟩
  case fewer =>
    intro n reason hk
    rw [hwhole] at hk
    obtain ⟨m', t, hran, -⟩ := hshort n reason hk
    rw [hran]

end

/-! ### Work to which its state is of no concern -/

/-- Work on any kind of state takes the same number of looks, comes to the same outcome and leaves
the state as it is. -/
def Plain (work : ∀ σ : Type, Metered σ α) : Prop :=
  ∃ k r, ∀ (σ : Type) (s : σ), Takes Eq (work σ) s k r s

theorem plain_pure (a : α) : Plain fun σ => (pure a : Metered σ α) :=
  ⟨0, .ok a, fun _ s => takes_pure a s⟩

theorem plain_throw (e : Failure) : Plain fun σ => (throw e : Metered σ α) :=
  ⟨0, .error e, fun _ s => takes_throw e s⟩

theorem plain_checkpoint : Plain fun σ => (checkpoint : Metered σ Unit) :=
  ⟨1, .ok (), fun _ s => takes_checkpoint s⟩

theorem Plain.bind {work : ∀ σ, Metered σ α} {f : ∀ σ, α → Metered σ β} (hwork : Plain work)
    (hf : ∀ a, Plain fun σ => f σ a) : Plain fun σ => work σ >>= f σ := by
  obtain ⟨k, r, hran⟩ := hwork
  cases r with
  | error e => exact ⟨k, .error e, fun σ s => (hran σ s).bind_error⟩
  | ok a =>
    obtain ⟨l, r, hrest⟩ := hf a
    exact ⟨k + l, r, fun σ s => (hran σ s).bind (hrest σ s)⟩

theorem Plain.mapM {work : ∀ σ, α → Metered σ β} (h : ∀ a, Plain fun σ => work σ a) (l : List α) :
    Plain fun σ => l.mapM (work σ) := by
  induction l with
  | nil => exact plain_pure []
  | cons a l ih =>
    simp only [List.mapM_cons]
    exact (h a).bind fun b => ih.bind fun bs => plain_pure (b :: bs)

theorem Plain.foldlM {work : ∀ σ, β → α → Metered σ β} (h : ∀ b a, Plain fun σ => work σ b a)
    (l : List α) (b : β) : Plain fun σ => l.foldlM (work σ) b := by
  induction l generalizing b with
  | nil => exact plain_pure b
  | cons a l ih =>
    simp only [List.foldlM_cons]
    exact (h b a).bind ih

theorem Plain.interruptible {work : ∀ σ, Metered σ α} (h : Plain work) [IsPreorder σ before] :
    Interruptible before (work σ) := by
  intro s
  obtain ⟨k, r, hran⟩ := h
  refine ⟨k, r, s, refl_of before s, (hran σ s).whole, fun m hm => ?_⟩
  obtain ⟨m', t, hshort, rfl⟩ := (hran σ s).short m hm
  exact ⟨m', t, hshort, refl_of before t⟩

/-- An answer that such work ends with under some meter is the one that it ends with if nothing
calls it off. -/
theorem Plain.ends_of_ok {work : ∀ σ, Metered σ α} (h : Plain work) {m : Meter} {s : σ} {a : α}
    (hran : ((work σ).runFrom m s).1 = .ok a) : (work τ).Ends (.ok a) := by
  obtain ⟨k, r, htakes⟩ := h
  have hr : r = .ok a := by
    by_cases hm : m.Allows k
    · rwa [(htakes σ s).whole m hm] at hran
    · obtain ⟨m', t, hshort, -⟩ := (htakes σ s).short m hm
      rw [hshort] at hran
      cases hran
  intro m' t hm'
  rw [(htakes τ t).whole m' (Meter.allows_of_limit_eq_none hm' k), hr]
  exact ⟨rfl, hm'⟩

/-! ### Keeping note -/

/-- Work that keeps note of something does so beside the work itself: both come to the same outcome
and the same state, and after an answer to the same meter. -/
def Notes (noted : Metered (σ × τ) α) (work : Metered σ α) : Prop :=
  ∀ m s t, ∃ m' t', noted.runFrom m (s, t) =
      ((work.runFrom m s).1, m', (work.runFrom m s).2.2, t') ∧
    ∀ a, (work.runFrom m s).1 = .ok a → m' = (work.runFrom m s).2.1

theorem notes_pure (a : α) : Notes (pure a : Metered (σ × τ) α) (pure a) :=
  fun m _ t => ⟨m, t, rfl, fun _ _ => rfl⟩

theorem Notes.bind {noted : Metered (σ × τ) α} {work : Metered σ α} {f : α → Metered (σ × τ) β}
    {g : α → Metered σ β} (hwork : Notes noted work) (hf : ∀ a, Notes (f a) (g a)) :
    Notes (noted >>= f) (work >>= g) := by
  intro m s t
  obtain ⟨m', t', hnoted, hmeter⟩ := hwork m s t
  rw [runFrom_bind, runFrom_bind, hnoted]
  generalize work.runFrom m s = ran at hmeter ⊢
  obtain ⟨r, m'', s'⟩ := ran
  cases r with
  | error e => exact ⟨m', t', rfl, nofun⟩
  | ok a =>
    obtain rfl : m' = m'' := hmeter a rfl
    exact hf a m' s' t'

/-- Work to which its state is of no concern keeps no note. -/
theorem Plain.notes {work : ∀ σ, Metered σ α} (h : Plain work) :
    Notes (work (σ × τ)) (work σ) := by
  intro m s t
  obtain ⟨k, r, hran⟩ := h
  by_cases hm : m.Allows k
  · rw [(hran σ s).whole m hm, (hran (σ × τ) (s, t)).whole m hm]
    exact ⟨m.after k, t, rfl, fun _ _ => rfl⟩
  · obtain ⟨m₁, s', hwork, rfl⟩ := (hran σ s).short m hm
    obtain ⟨m₂, st, hnoted, rfl⟩ := (hran (σ × τ) (s', t)).short m hm
    rw [hwork, hnoted]
    exact ⟨m₂, t, rfl, nofun⟩

end Metered

end Concordance
