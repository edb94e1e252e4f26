import Concordance.Proofs.Sharing.Calls

/-!
# The present generation

A shared value goes back to an earlier generation by following links, one generation at a time, and
it drops the link of a generation as soon as that has an outcome. That the walk nevertheless always
finds the right generation is the content of this file: after any events, the present generation is
the latest that was ever started and not aborted.

## The invariant

A link is allowed to be out of date: between a generation and the one that it links to there may be
others, and the one that it links to may have been aborted since. `Covers target gens` is what is
left to be true of it, namely that all generations later than the target were aborted. It stays true
whatever is aborted afterwards, and it is enough for the walk (`survivor?_eq_newest?`).

Only generations that have no outcome, or were aborted before they had one, are ever walked
through, so `Linked` asks it only of those. A link that was dropped belongs to neither.

## Main results

* `Session.sound_run`: the invariant along every run
* `Session.present_is_newest_survivor`: what it says about the present generation, about new loads
  and about going back
-/

namespace Concordance.Sharing

variable {α : Type}

namespace Shared

/-! ### Walks back -/

/-- The first of some generations that was not aborted. -/
def newest? : List (Generation α) → Option Nat
  | [] => none
  | g :: rest => if g.aborted then newest? rest else some g.number

/-- All generations before the target in the list were aborted; without a target, all of them. -/
def Covers (target : Option Nat) : List (Generation α) → Prop
  | [] => target = none
  | g :: rest => target = some g.number ∨ g.aborted = true ∧ Covers target rest

/-- Every generation that a walk back may go through has a link that covers those before it. -/
def Linked : List (Generation α) → Prop
  | [] => True
  | g :: rest => (g.aborted = true ∨ g.outcome? = none → Covers g.previous rest) ∧ Linked rest

theorem covers_newest? (gens : List (Generation α)) : Covers (newest? gens) gens := by
  induction gens with
  | nil => rfl
  | cons g rest ih =>
    rw [newest?]
    split
    case isTrue ha => exact .inr ⟨ha, ih⟩
    case isFalse => exact .inl rfl

theorem Covers.later {target : Option Nat} {gens gens' : List (Generation α)}
    (h : Covers target gens) (hl : List.Forall₂ Generation.Later gens gens') :
    Covers target gens' := by
  induction hl with
  | nil => exact h
  | cons hg _ ih =>
    rcases h with h | ⟨ha, h⟩
    · exact .inl (by rw [h, hg.number])
    · exact .inr ⟨hg.aborted ha, ih h⟩

theorem Linked.later {gens gens' : List (Generation α)} (h : Linked gens)
    (hl : List.Forall₂ Generation.Later gens gens') : Linked gens' := by
  induction hl with
  | nil => trivial
  | cons hg hrest ih =>
    refine ⟨fun hlink => ?_, ih h.2⟩
    obtain ⟨hp, hlink⟩ := hg.link hlink
    rw [hp]
    exact (h.1 hlink).later hrest

/-- **A walk back finds the newest survivor.** -/
theorem survivor?_eq_newest? {target : Option Nat} {gens : List (Generation α)} (hl : Linked gens)
    (hc : Covers target gens) : survivor? target gens = newest? gens := by
  induction gens generalizing target with
  | nil =>
    obtain rfl : target = none := hc
    rfl
  | cons g rest ih =>
    by_cases htop : target = some g.number
    · subst htop
      simp only [survivor?, newest?, if_true]
      split
      case isTrue ha => exact ih hl.2 (hl.1 (.inl ha))
      case isFalse => rfl
    · obtain ⟨ha, hc⟩ := hc.resolve_left htop
      have hrest : newest? (g :: rest) = newest? rest := if_pos ha
      rw [hrest, ← ih hl.2 hc]
      cases target with
      | none => cases rest <;> rfl
      | some n =>
        have hn : ¬ g.number = n := fun h => htop (congrArg some h.symm)
        simp only [survivor?, hn, if_false]

theorem newest?_steady {gens gens' : List (Generation α)}
    (h : List.Forall₂ Generation.Steady gens gens') : newest? gens' = newest? gens := by
  induction h with
  | nil => rfl
  | cons hg _ ih => simp only [newest?, hg.aborted_eq, hg.number, ih]

/-- Aborting a generation that is not the newest survivor leaves the newest one where it is. -/
theorem newest?_modify {s : Shared α} {n : Nat} {f : Generation α → Generation α}
    (hf : ∀ g, g.aborted = true → (f g).aborted = true)
    (hn : newest? s.generations ≠ some n) :
    newest? (s.modify n f).generations = newest? s.generations := by
  suffices ∀ gens, newest? gens ≠ some n →
      newest? (gens.map fun g => if g.number = n then f g else g) = newest? gens from this _ hn
  intro gens hn
  induction gens with
  | nil => rfl
  | cons g rest ih =>
    rw [List.map_cons]
    by_cases ha : g.aborted = true
    · have hrest : newest? (g :: rest) = newest? rest := if_pos ha
      rw [hrest] at hn ⊢
      rw [← ih hn]
      split
      case isTrue => exact if_pos (hf g ha)
      case isFalse => exact if_pos ha
    · have hne : ¬ g.number = n := fun h => hn (by rw [newest?, if_neg ha, h])
      simp only [newest?, hne, if_false, ha, Bool.false_eq_true]

/-! ### The latest of some generations -/

/-- `n` is the number of the latest generation with a property. -/
def Latest (p : Generation α → Prop) (gens : List (Generation α)) (n : Nat) : Prop :=
  ∃ g ∈ gens, g.number = n ∧ p g ∧ ∀ g' ∈ gens, p g' → g'.number ≤ n

theorem newest?_eq_some_iff {gens : List (Generation α)} (h : Numbered gens) (n : Nat) :
    newest? gens = some n ↔ Latest (fun g => g.aborted = false) gens n := by
  induction gens with
  | nil => simp [newest?, Latest]
  | cons a rest ih =>
    by_cases ha : a.aborted = true
    · have hrest : newest? (a :: rest) = newest? rest := if_pos ha
      rw [hrest, ih h.2]
      simp [Latest, ha]
    · have hfirst : newest? (a :: rest) = some a.number := if_neg ha
      rw [hfirst]
      constructor
      · intro hn
        obtain rfl := Option.some.inj hn
        refine ⟨a, List.mem_cons_self, rfl, by simpa using ha, fun g hg _ => ?_⟩
        have hle := h.le_length hg
        have hlast := h.1
        simp only [List.length_cons] at hle
        omega
      · rintro ⟨g, hg, rfl, -, hmax⟩
        have hle := hmax a List.mem_cons_self (by simpa using ha)
        have hge := h.le_length hg
        have hlast := h.1
        simp only [List.length_cons] at hge
        exact congrArg some (by omega)

/-- Once a generation is aborted, the latest survivor is the latest of the others. -/
theorem latest_modify {s : Shared α} {n : Nat} {f : Generation α → Generation α}
    (hab : ∀ g ∈ s.generations, g.number = n → (f g).aborted = true) (m : Nat) :
    Latest (fun g => g.aborted = false) (s.modify n f).generations m ↔
      Latest (fun g => g.aborted = false ∧ some g.number ≠ some n) s.generations m := by
  constructor
  · rintro ⟨g', hg', hm, ha', hmax⟩
    obtain ⟨g, hg, rfl⟩ := mem_modify.mp hg'
    have hgn : ¬ g.number = n := fun hgn => by
      rw [if_pos hgn, hab g hg hgn] at ha'
      cases ha'
    rw [if_neg hgn] at hm ha'
    refine ⟨g, hg, hm, ⟨ha', fun he => hgn (Option.some.inj he)⟩, fun x hx hpx => ?_⟩
    have hxn : ¬ x.number = n := fun he => hpx.2 (congrArg some he)
    exact hmax x (mem_modify.mpr ⟨x, hx, if_neg hxn⟩) hpx.1
  · rintro ⟨g, hg, hm, ⟨ha, hgn⟩, hmax⟩
    have hgn' : ¬ g.number = n := fun he => hgn (congrArg some he)
    refine ⟨g, mem_modify.mpr ⟨g, hg, if_neg hgn'⟩, hm, ha, fun x' hx' hpx => ?_⟩
    obtain ⟨x, hx, rfl⟩ := mem_modify.mp hx'
    have hxn : ¬ x.number = n := fun he => by
      rw [if_pos he, hab x hx he] at hpx
      cases hpx
    rw [if_neg hxn] at hpx ⊢
    exact hmax x hx ⟨hpx, fun he => hxn (Option.some.inj he)⟩

theorem newest?_eq_none_iff {gens : List (Generation α)} :
    newest? gens = none ↔ ∀ g ∈ gens, g.aborted = true := by
  induction gens with
  | nil => simp [newest?]
  | cons a rest ih => by_cases ha : a.aborted = true <;> simp [newest?, ha, ih]

/-! ### The invariant -/

/-- The present generation is the newest survivor, and walks back will find the next one. -/
structure Sound (s : Shared α) : Prop where
  numbered : Numbered s.generations
  linked : Linked s.generations
  current : s.current = newest? s.generations

/-- The present generation is there, and it was not aborted. -/
theorem Sound.exists_of_current {s : Shared α} (h : Sound s) {n : Nat} (hc : s.current = some n) :
    ∃ g ∈ s.generations, g.number = n ∧ g.aborted = false := by
  obtain ⟨g, hg, hn, ha, -⟩ := (newest?_eq_some_iff h.numbered n).mp (h.current.symm.trans hc)
  exact ⟨g, hg, hn, ha⟩

theorem Sound.eq_of_number {s : Shared α} (h : Sound s) {g g' : Generation α}
    (hg : g ∈ s.generations) (hg' : g' ∈ s.generations) (hn : g'.number = g.number) : g' = g :=
  h.numbered.eq_of_find? (h.numbered.find?_eq hg) hg' hn

theorem Sound.steady {s s' : Shared α} (h : Sound s) (hc : s'.current = s.current)
    (hg : List.Forall₂ Generation.Steady s.generations s'.generations) : Sound s' where
  numbered := h.numbered.later (hg.imp fun _ _ h => h.toLater)
  linked := h.linked.later (hg.imp fun _ _ h => h.toLater)
  current := by rw [hc, h.current, newest?_steady hg]

theorem Sound.advances {s s' : Shared α} (h : Sound s) (ha : Advances s s') : Sound s' :=
  h.steady ha.current (ha.generations.imp fun _ _ h => h.toSteady)

theorem Sound.modify {s : Shared α} (h : Sound s) (n : Nat) {f : Generation α → Generation α}
    (hf : ∀ g, Generation.Steady g (f g)) : Sound (s.modify n f) :=
  h.steady rfl (forall₂_modify s n (fun g _ => (Generation.Progress.refl g).toSteady)
    fun g _ _ => hf g)

/-- A new generation links to the newest survivor, which covers those before it. -/
theorem Sound.start {s : Shared α} (h : Sound s) : Sound s.start.1 where
  numbered := ⟨rfl, h.numbered⟩
  linked := ⟨fun _ => by rw [h.current]; exact covers_newest? s.generations, h.linked⟩
  current := rfl

theorem Sound.wait {s s' : Shared α} {target : Option Nat} {n : Nat} (h : Sound s)
    (hw : s.wait target = .ok (n, s')) : Sound s' := by
  obtain ⟨-, ⟨-, rfl⟩ | ⟨-, -, rfl⟩⟩ := wait_eq_ok hw
  · exact h.modify n Generation.steady_attach
  · exact h.start.modify n Generation.steady_attach

/-- Whoever starts to wait waits for a generation that is there. -/
theorem Sound.exists_of_wait {s s' : Shared α} {target : Option Nat} {n : Nat} (h : Sound s)
    (htarget : ∀ m, target = some m → s.current = some m) (hw : s.wait target = .ok (n, s')) :
    ∃ g ∈ s'.generations, g.number = n := by
  obtain ⟨-, ⟨ht, rfl⟩ | ⟨-, rfl, rfl⟩⟩ := wait_eq_ok hw
  · obtain ⟨g, hg, hn, -⟩ := h.exists_of_current (htarget n ht)
    exact ⟨g.attach, mem_modify.mpr ⟨g, hg, if_pos hn⟩, hn⟩
  · exact ⟨_, mem_modify.mpr ⟨_, List.mem_cons_self, if_pos rfl⟩, rfl⟩

theorem Sound.abort {s : Shared α} (h : Sound s) {n : Nat}
    (hn : ∀ g ∈ s.generations, g.number = n → g.outcome? = none) : Sound (s.abort n) := by
  have hlater : List.Forall₂ Generation.Later s.generations (s.modify n .abort).generations :=
    forall₂_later_modify s n fun g hg hgn => Generation.later_abort (hn g hg hgn)
  have hlinked := h.linked.later hlater
  unfold Shared.abort
  dsimp only
  split
  case isTrue hc =>
    have hcov : Covers (some n) (s.modify n .abort).generations := by
      rw [show some n = newest? s.generations from hc.symm.trans h.current]
      exact (covers_newest? s.generations).later hlater
    exact ⟨h.numbered.later hlater, hlinked, survivor?_eq_newest? hlinked hcov⟩
  case isFalse hc =>
    have hne : newest? s.generations ≠ some n := fun he => hc (h.current.trans he)
    refine ⟨h.numbered.later hlater, hlinked, ?_⟩
    exact h.current.trans (newest?_modify (fun _ _ => rfl) hne).symm

theorem Sound.release {s : Shared α} (h : Sound s) (n : Nat) (cancelled : Bool) :
    Sound (s.release n cancelled) := by
  have hleave : Sound (s.modify n .leave) := h.modify n Generation.steady_leave
  unfold Shared.release
  dsimp only
  split
  case h_2 => exact hleave
  case h_1 g hf =>
    split
    case isFalse => exact hleave
    case isTrue hc =>
      simp only [Bool.and_eq_true, Bool.not_eq_true', Generation.isSettled_eq_false_iff] at hc
      refine hleave.abort fun g' hg' hn => ?_
      rw [hleave.numbered.eq_of_find? hf hg' hn]
      exact hc.2

end Shared

namespace Session

/-! ### Runs -/

theorem sound_enter {s : Session α} (h : s.shared.Sound) (i : Nat) : (s.enter i).shared.Sound := by
  rcases enter_cases s i with he | ⟨c, -, -, ⟨-, he⟩ | ⟨n, shared, hw, he⟩⟩ <;> rw [he]
  · exact h
  · exact h
  · exact h.wait hw

theorem sound_deliver {s : Session α} (h : s.shared.Sound) (i : Nat) :
    (s.deliver i).shared.Sound := by
  rcases deliver_cases s i with he | ⟨c, n, g, r, -, -, -, -, he⟩ <;> rw [he]
  · exact h
  · exact h.release n false

theorem sound_cancel {s : Session α} (h : s.shared.Sound) (i : Nat) :
    (s.cancel i).shared.Sound := by
  rcases cancel_cases s i with he | ⟨c, n, -, -, he⟩ <;> rw [he]
  · exact h
  · exact h.release n true

theorem sound_step {s : Session α} (h : s.shared.Sound) (e : Event α) :
    (s.step e).shared.Sound := by
  cases e with
  | ask request => exact sound_enter (by rwa [shared_arrive]) _
  | arrive request => simpa only [step, shared_arrive] using h
  | enter i => exact sound_enter h i
  | begin => exact h.advances (Shared.advances_begin _)
  | launch n => exact h.advances (Shared.advances_launch _ n)
  | finish n result => exact h.advances (Shared.advances_finish _ n result)
  | timeOut n => exact h.advances (Shared.advances_timeOut _ n)
  | expire n => exact h.advances (Shared.advances_expire _ n)
  | giveUp n => exact h.advances (Shared.advances_giveUp _ n)
  | deliver i => exact sound_deliver h i
  | cancel i => exact sound_cancel h i
  | close => exact h.advances (Shared.advances_close _)
  | shut => exact h.advances (Shared.advances_shut _)
  | revoke => exact h.advances (Shared.advances_revoke _)

theorem sound_run (root : String) (limit : Option String) (events : List (Event α)) :
    ((fresh root limit).run events).shared.Sound := by
  have hfresh : (fresh root limit : Session α).shared.Sound := ⟨trivial, trivial, rfl⟩
  exact run_induction (P := fun s => s.shared.Sound) (fun _ e h => sound_step h e) hfresh events

/-! ### Starting and going back -/

/-- The events by which a reload starts its load. -/
def StartsReload (s : Session α) : Event α → Prop
  | .ask request => request = .reload
  | .enter i => ∃ c, s.calls[i]? = some c ∧ c.request = .reload
  | _ => False

theorem length_generations_of_advances {s s' : Shared α} (h : s.Advances s') :
    s'.generations.length = s.generations.length :=
  h.generations.length_eq.symm

theorem length_generations_release {s : Shared α} (h : s.Sound) (n : Nat) (cancelled : Bool) :
    (s.release n cancelled).generations.length = s.generations.length := by
  rw [Shared.generations_release h.numbered]
  exact List.length_map _

/-- A call that is no reload starts a load only when there is no present generation. -/
theorem current_eq_none_of_enter {s : Session α} {i : Nat} (hi : ∀ c, s.calls[i]? = some c →
    c.request ≠ .reload) (hlt : s.shared.generations.length <
      (s.enter i).shared.generations.length) : s.shared.current = none := by
  rcases enter_cases s i with he | ⟨c, hc, -, ⟨-, he⟩ | ⟨n, shared, hw, he⟩⟩ <;> rw [he] at hlt
  · exact absurd hlt (Nat.lt_irrefl _)
  · exact absurd hlt (Nat.lt_irrefl _)
  · have htarget : s.target c.request = s.shared.current := if_neg (hi c hc)
    rw [htarget] at hw
    obtain ⟨-, ⟨-, rfl⟩ | ⟨hnone, -, -⟩⟩ := Shared.wait_eq_ok hw
    · simp [Shared.attach, Shared.modify] at hlt
    · exact hnone

theorem current_eq_none_of_step {s : Session α} (h : s.shared.Sound) {e : Event α}
    (he : ¬ s.StartsReload e) (hlt : s.shared.generations.length <
      (s.step e).shared.generations.length) : s.shared.current = none := by
  have hadv : ∀ {s' : Shared α}, s.shared.Advances s' →
      ¬ s.shared.generations.length < s'.generations.length := fun ha hlt =>
    absurd (length_generations_of_advances ha) (Nat.ne_of_gt hlt)
  cases e with
  | ask request =>
    have hc : (s.arrive request).shared.current = none := by
      refine current_eq_none_of_enter (i := s.calls.length) (fun c hc => ?_)
        (by rwa [shared_arrive])
      rcases arrive_cases s request with ⟨n, g, r, -, -, -, -, ha⟩ | ha <;>
        · rw [ha] at hc
          simp only [List.getElem?_concat_length, Option.some.injEq] at hc
          subst hc
          exact he
    rwa [shared_arrive] at hc
  | arrive request =>
    exact absurd hlt (by simp [step])
  | enter i => exact current_eq_none_of_enter (fun c hc hr => he ⟨c, hc, hr⟩) hlt
  | begin => exact absurd hlt (hadv (Shared.advances_begin _))
  | launch n => exact absurd hlt (hadv (Shared.advances_launch _ n))
  | finish n result => exact absurd hlt (hadv (Shared.advances_finish _ n result))
  | timeOut n => exact absurd hlt (hadv (Shared.advances_timeOut _ n))
  | expire n => exact absurd hlt (hadv (Shared.advances_expire _ n))
  | giveUp n => exact absurd hlt (hadv (Shared.advances_giveUp _ n))
  | deliver i =>
    rcases deliver_cases s i with hd | ⟨c, n, g, r, -, -, -, -, hd⟩ <;>
      rw [step, hd] at hlt
    · exact absurd hlt (Nat.lt_irrefl _)
    · exact absurd hlt (by simp [length_generations_release h])
  | cancel i =>
    rcases cancel_cases s i with hd | ⟨c, n, -, -, hd⟩ <;>
      rw [step, hd] at hlt
    · exact absurd hlt (Nat.lt_irrefl _)
    · exact absurd hlt (by simp [length_generations_release h])
  | close => exact absurd hlt (hadv (Shared.advances_close _))
  | shut => exact absurd hlt (hadv (Shared.advances_shut _))
  | revoke => exact absurd hlt (hadv (Shared.advances_revoke _))

/-- Going back after a call was cancelled lands on the newest of the others. -/
theorem current_cancel {s : Session α} (h : s.shared.Sound) {i : Nat}
    (hne : (s.cancel i).shared.current ≠ s.shared.current) (m : Nat) :
    (s.cancel i).shared.current = some m ↔
      Shared.Latest (fun g => g.aborted = false ∧ some g.number ≠ s.shared.current)
        s.shared.generations m := by
  have h' := sound_cancel h i
  rw [h'.current, Shared.newest?_eq_some_iff h'.numbered]
  rw [h'.current, h.current] at hne
  rw [h.current]
  rcases cancel_cases s i with hd | ⟨c, n, -, -, hd⟩
  · rw [hd] at hne
    exact absurd rfl hne
  have hgens : (s.cancel i).shared.generations =
      (s.shared.modify n fun g => g.left true).generations := by
    rw [hd]
    exact Shared.generations_release h.numbered n true
  rw [hgens] at hne ⊢
  -- were it not the present generation that is aborted, the newest survivor would be the same
  have hn : Shared.newest? s.shared.generations = some n := by
    by_contra hn
    exact hne (Shared.newest?_modify (fun g => (g.later_left true).aborted) hn)
  have hab : ∀ g ∈ s.shared.generations, g.number = n → (g.left true).aborted = true := by
    intro g hg hgn
    by_contra ha
    refine hne (Shared.newest?_steady (Shared.forall₂_modify _ n
      (fun g _ => (Generation.Progress.refl g).toSteady) fun g' hg' hgn' => ?_))
    obtain rfl : g' = g := h.eq_of_number hg hg' (hgn'.trans hgn.symm)
    refine ⟨g'.later_left true, ?_⟩
    have hf : (g'.left true).aborted = false := by simpa using ha
    rw [hf]
    by_contra hg'a
    exact absurd ((g'.later_left true).aborted (by simpa using hg'a)) (by simp [hf])
  rw [hn]
  exact Shared.latest_modify hab m

/-- **The present generation is the newest survivor.** After any events, for all the generations
that were ever started, in the order of their numbers:

* the present generation is the latest one that was not aborted, and there is none exactly when
  all were aborted;
* a load is started other than by a reload only when all were aborted;
* when the present generation is aborted, the latest of the others that were not aborted becomes
  the present one. -/
theorem present_is_newest_survivor (root : String) (limit : Option String)
    (events : List (Event α)) :
    let s := (fresh root limit).run events
    let gens := s.shared.generations
    gens.map Generation.number = (List.range' 1 gens.length).reverse ∧
      (∀ n, s.shared.current = some n ↔ Shared.Latest (fun g => g.aborted = false) gens n) ∧
      (s.shared.current = none ↔ ∀ g ∈ gens, g.aborted = true) ∧
      (∀ e, ¬ s.StartsReload e → gens.length < (s.step e).shared.generations.length →
        ∀ g ∈ gens, g.aborted = true) ∧
      ∀ i, (s.step (.cancel i)).shared.current ≠ s.shared.current →
        ∀ m, (s.step (.cancel i)).shared.current = some m ↔
          Shared.Latest (fun g => g.aborted = false ∧ some g.number ≠ s.shared.current) gens m := by
  intro s gens
  have h : s.shared.Sound := sound_run root limit events
  have hnone : s.shared.current = none ↔ ∀ g ∈ gens, g.aborted = true := by
    rw [h.current, Shared.newest?_eq_none_iff]
  refine ⟨Shared.map_number_eq_range' h.numbered, fun n => ?_, hnone, fun e he hlt => ?_,
    fun i hne m => current_cancel h hne m⟩
  · rw [h.current, Shared.newest?_eq_some_iff h.numbered]
  · exact hnone.mp (current_eq_none_of_step h he hlt)

end Session

end Concordance.Sharing
