import Concordance.Proofs.Sharing.Waiting

/-!
# What closing puts an end to

A value that is closed starts no further loads. But several loads can be under way when it is closed,
since a reload does not wait for the load before it, and closing calls off only one of them: the one
that was present when no further loads were allowed. Every other load without an outcome goes on for
as long as somebody waits for it, unless it was called off before.

So whether closing puts an end to all loads can be read off the calls: it does exactly if nobody is
left who waits for one of the others.

## Main definitions

* `Shared.CalledOff`: every load without an outcome was called off
* `Shared.Closed`: the invariant of a value that was closed

## Main results

* `Session.later_run`: after closing no load is started
* `Session.calledOff_iff`: when closing puts an end to all loads
* `Session.not_always_calledOff`: a load that goes on after closing
-/

namespace Concordance.Sharing

variable {α : Type}

namespace Generation

theorem Later.outcome?_eq_none {g g' : Generation α} (h : Later g g') (hr : g'.outcome? = none) :
    g.outcome? = none := by
  cases hg : g.outcome? with
  | none => rfl
  | some r =>
    rw [h.outcome r hg] at hr
    cases hr

theorem cancelled_revoke {g : Generation α} (hr : g.outcome? = none) :
    g.revoke.token.cancelled = true := by
  rw [revoke, if_neg (by simp [(isSettled_eq_false_iff g).mpr hr])]
  exact Token.cancelled_cancel g.token _

end Generation

namespace Shared

/-- Every load without an outcome was called off. -/
def CalledOff (s : Shared α) : Prop :=
  ∀ g ∈ s.generations, g.outcome? = none → g.token.cancelled = true

/-- A load that was called off stays so, and one that is started has not been. -/
theorem CalledOff.later {s s' : Shared α} (h : s.CalledOff)
    (hl : List.Forall₂ Generation.Later s.generations s'.generations) : s'.CalledOff := by
  intro g' hg' hr
  obtain ⟨g, hg, hlater⟩ := exists_earlier hl hg'
  exact hlater.cancelled (h g hg (hlater.outcome?_eq_none hr))

/-- The value was closed while `present` was the present generation: that one is yet to be called
off, or it has been. -/
structure Closed (present : Option Nat) (s : Shared α) : Prop where
  closed : s.closed = true
  closing : ∀ n, s.closing = some n → present = some n
  revoked : s.closing = none → ∀ g ∈ s.generations, present = some g.number →
    g.outcome? = none → g.token.cancelled = true

theorem closed_shut {s : Shared α} (h : s.closed = false) : Closed s.current s.shut := by
  rw [shut, if_neg (by simp [h])]
  refine ⟨rfl, fun n hn => hn, fun hnone g _ hg => ?_⟩
  rw [show s.current = none from hnone] at hg
  cases hg

theorem shut_of_closed {s : Shared α} (h : s.closed = true) : s.shut = s := if_pos h

theorem closing_revoke (s : Shared α) : s.revoke.closing = none := by
  rw [revoke]
  split
  case h_1 => rfl
  case h_2 h => exact h

/-- Calling off the load that was present at closing changes no other. -/
theorem mem_revoke_iff {s : Shared α} {g' : Generation α} :
    g' ∈ s.revoke.generations ↔
      ∃ g ∈ s.generations, (if s.closing = some g.number then g.revoke else g) = g' := by
  rw [revoke]
  split
  case h_1 n hn => simp [modify, hn, eq_comm]
  case h_2 hnone => simp [hnone]

theorem Closed.revoke {present : Option Nat} {s : Shared α} (h : s.Closed present) :
    s.revoke.Closed present := by
  refine ⟨?_, fun n hn => ?_, fun _ g' hg' hpresent hr => ?_⟩
  · rw [Shared.revoke]
    split <;> exact h.closed
  · rw [closing_revoke] at hn
    cases hn
  · obtain ⟨g, hg, rfl⟩ := mem_revoke_iff.mp hg'
    split at hpresent
    case isTrue hclosing =>
      rw [if_pos hclosing] at hr ⊢
      exact Generation.cancelled_revoke (g.progress_revoke.toLater.outcome?_eq_none hr)
    case isFalse hother =>
      rw [if_neg hother] at hr ⊢
      cases hclosing : s.closing with
      | none => exact h.revoked hclosing g hg hpresent hr
      | some n =>
        rw [hclosing, ← h.closing n hclosing] at hother
        exact absurd hpresent hother

end Shared

namespace Session

variable {s : Session α}

/-! ### After closing -/

theorem enter_of_closed (h : s.shared.closed = true) (i : Nat) : (s.enter i).shared = s.shared := by
  rcases enter_cases s i with he | ⟨c, -, -, ⟨-, he⟩ | ⟨n, shared, hw, he⟩⟩
  · rw [he]
  · rw [he]
    rfl
  · have hopen := (Shared.wait_eq_ok hw).1
    rw [h] at hopen
    cases hopen

/-- What an event does after closing: no load is started, and the load that was present at closing
is still to be called off or is called off now. -/
theorem step_of_closed (hn : Shared.Numbered s.shared.generations) (h : s.shared.closed = true)
    (e : Event α) :
    List.Forall₂ Generation.Later s.shared.generations (s.step e).shared.generations ∧
      ((s.step e).shared.closed = true ∧ (s.step e).shared.closing = s.shared.closing ∨
        (s.step e).shared = s.shared.revoke) := by
  have hrefl := Shared.forall₂_later_refl s.shared
  cases e with
  | ask request =>
    have hsame : (s.step (.ask request)).shared = s.shared := by
      rw [step, ask, enter_of_closed (by rwa [shared_arrive]), shared_arrive]
    rw [hsame]
    exact ⟨hrefl, .inl ⟨h, rfl⟩⟩
  | arrive request =>
    rw [step, shared_arrive]
    exact ⟨hrefl, .inl ⟨h, rfl⟩⟩
  | enter i =>
    rw [step, enter_of_closed h]
    exact ⟨hrefl, .inl ⟨h, rfl⟩⟩
  | begin =>
    refine ⟨(Shared.advances_begin _).later, .inl ?_⟩
    simp only [step, Shared.begin]
    split <;> exact ⟨h, rfl⟩
  | launch n => exact ⟨(Shared.advances_launch _ n).later, .inl ⟨h, rfl⟩⟩
  | finish n result => exact ⟨(Shared.advances_finish _ n result).later, .inl ⟨h, rfl⟩⟩
  | timeOut n =>
    refine ⟨(Shared.advances_timeOut _ n).later, .inl ?_⟩
    simp only [step, Shared.timeOut, Shared.expire]
    split <;> exact ⟨h, rfl⟩
  | expire n =>
    refine ⟨(Shared.advances_expire _ n).later, .inl ?_⟩
    simp only [step, Shared.expire]
    split <;> exact ⟨h, rfl⟩
  | giveUp n => exact ⟨(Shared.advances_giveUp _ n).later, .inl ⟨h, rfl⟩⟩
  | deliver i =>
    rcases deliver_cases s i with hd | ⟨c, n, g, r, -, -, -, -, hd⟩ <;> rw [step, hd]
    · exact ⟨hrefl, .inl ⟨h, rfl⟩⟩
    · obtain ⟨hclosed, hclosing⟩ := Shared.closed_release s.shared n false
      exact ⟨Shared.forall₂_later_release hn n false, .inl ⟨hclosed.trans h, hclosing⟩⟩
  | cancel i =>
    rcases cancel_cases s i with hd | ⟨c, n, -, -, hd⟩ <;> rw [step, hd]
    · exact ⟨hrefl, .inl ⟨h, rfl⟩⟩
    · obtain ⟨hclosed, hclosing⟩ := Shared.closed_release s.shared n true
      exact ⟨Shared.forall₂_later_release hn n true, .inl ⟨hclosed.trans h, hclosing⟩⟩
  | close =>
    refine ⟨(Shared.advances_close _).later, .inr ?_⟩
    rw [step, Shared.close, Shared.shut_of_closed h]
  | shut =>
    refine ⟨(Shared.advances_shut _).later, .inl ?_⟩
    rw [step, Shared.shut_of_closed h]
    exact ⟨h, rfl⟩
  | revoke => exact ⟨(Shared.advances_revoke _).later, .inr rfl⟩

theorem closed_step {present : Option Nat} (hn : Shared.Numbered s.shared.generations)
    (h : s.shared.Closed present) (e : Event α) : (s.step e).shared.Closed present := by
  obtain ⟨hlater, ⟨hclosed, hclosing⟩ | hrevoke⟩ := step_of_closed hn h.closed e
  · refine ⟨hclosed, fun n hn => h.closing n (hclosing.symm.trans hn), ?_⟩
    intro hnone g' hg' hpresent hr
    obtain ⟨g, hg, hgg'⟩ := Shared.exists_earlier hlater hg'
    rw [hgg'.number] at hpresent
    exact hgg'.cancelled
      (h.revoked (hclosing.symm.trans hnone) g hg hpresent (hgg'.outcome?_eq_none hr))
  · rw [hrevoke]
    exact h.revoke

theorem closed_run {present : Option Nat} (h : s.Attended) (hc : s.shared.Closed present)
    (events : List (Event α)) : (s.run events).shared.Closed present := by
  induction events generalizing s with
  | nil => exact hc
  | cons e events ih => exact ih (h.step e) (closed_step h.sound.numbered hc e)

/-- **After closing no load is started**: the generations stay those that there are. -/
theorem later_run {present : Option Nat} (h : s.Attended) (hc : s.shared.Closed present)
    (events : List (Event α)) :
    List.Forall₂ Generation.Later s.shared.generations (s.run events).shared.generations := by
  induction events generalizing s with
  | nil => exact Shared.forall₂_later_refl s.shared
  | cons e events ih =>
    have hstep := (step_of_closed h.sound.numbered hc.closed e).1
    have hrest := ih (h.step e) (closed_step h.sound.numbered hc e)
    exact Shared.forall₂_later_trans hstep hrest

theorem map_number_eq {gens gens' : List (Generation α)}
    (h : List.Forall₂ Generation.Later gens gens') :
    gens'.map Generation.number = gens.map Generation.number := by
  induction h with
  | nil => rfl
  | cons hg _ ih => rw [List.map_cons, List.map_cons, ih, hg.number]

/-! ### Loads that go on -/

/-- A load without an outcome that was not called off has somebody who waits for it. -/
theorem Attended.exists_waiting (h : s.Attended) {g : Generation α}
    (hg : g ∈ s.shared.generations) (hr : g.outcome? = none) (ht : g.token.cancelled ≠ true) :
    ∃ c ∈ s.calls, c.status = .waiting g.number := by
  have hab : g.aborted = false := by
    by_contra hab
    exact ht (h.abandoned g hg (by simpa using hab)).2
  have hpos := h.watched g hg hr hab
  rw [h.waiters g hg] at hpos
  obtain ⟨c, hc, hwaits⟩ := List.countP_pos_iff.mp hpos
  refine ⟨c, hc, ?_⟩
  rw [Call.waitsFor] at hwaits
  split at hwaits
  case h_1 m hm => rw [hm, of_decide_eq_true hwaits]
  case h_2 => cases hwaits

/-- The calls that wait for a load that closing does not call off. -/
def LeftWaiting (s : Session α) (present : Option Nat) (c : Call α) : Prop :=
  ∃ g ∈ s.shared.generations, c.status = .waiting g.number ∧ g.outcome? = none ∧
    g.token.cancelled = false ∧ present ≠ some g.number

/-- Calling off the load that was present at closing leaves none that goes on exactly if nobody
waits for another one. -/
theorem calledOff_revoke_iff {present : Option Nat} (h : s.Attended)
    (hc : s.shared.Closed present) :
    s.shared.revoke.CalledOff ↔ ∀ c ∈ s.calls, ¬ s.LeftWaiting present c := by
  constructor
  · rintro hoff c - ⟨g, hg, -, hr, ht, hother⟩
    have hkept : ¬ s.shared.closing = some g.number := fun hn => hother (hc.closing _ hn)
    have hcancelled := hoff g (Shared.mem_revoke_iff.mpr ⟨g, hg, if_neg hkept⟩) hr
    rw [ht] at hcancelled
    cases hcancelled
  · intro hnobody g' hg' hr
    by_contra ht
    obtain ⟨g, hg, rfl⟩ := Shared.mem_revoke_iff.mp hg'
    by_cases hclosing : s.shared.closing = some g.number
    · rw [if_pos hclosing] at hr ht
      exact ht (Generation.cancelled_revoke (g.progress_revoke.toLater.outcome?_eq_none hr))
    · rw [if_neg hclosing] at hr ht
      obtain ⟨c, hmem, hwaits⟩ := h.exists_waiting hg hr ht
      refine hnobody c hmem ⟨g, hg, hwaits, hr, by simpa using ht, fun hpresent => ?_⟩
      cases hnone : s.shared.closing with
      | none => exact ht (hc.revoked hnone g hg hpresent hr)
      | some n => exact hclosing (hnone.trans ((hc.closing n hnone).symm.trans hpresent))

/-- **Closing puts an end to all loads exactly if nobody is left who waits for another load than the
one that was present.** From any state in which the value is open, with any events between the two
steps of closing and any events after them:

* every load without an outcome has been called off, and stays so, exactly if none of the calls
  waits for a load without an outcome that was neither present when the value was shut nor called off
  before;
* no load is started any more.

Without events in between, the two steps are the event that closes the value at once. -/
theorem calledOff_iff (root : String) (limit : Option String) (before between : List (Event α))
    (hopen : ((fresh root limit).run before).shared.closed = false) :
    let s := (fresh root limit).run before
    let t := (s.step .shut).run between
    ((∀ later, ((t.step .revoke).run later).shared.CalledOff) ↔
      ∀ c ∈ t.calls, ¬ t.LeftWaiting s.shared.current c) ∧
    ∀ later, ((t.step .revoke).run later).shared.generations.map Generation.number =
      s.shared.generations.map Generation.number := by
  intro s t
  have hs : (s.step .shut).Attended := (attended_run root limit before).step .shut
  have hshut : (s.step .shut).shared.Closed s.shared.current := Shared.closed_shut hopen
  have ht : t.Attended := run_induction (fun _ e h => h.step e) hs between
  have hclosed : t.shared.Closed s.shared.current := closed_run hs hshut between
  have hlater := later_run (ht.step .revoke) (closed_step ht.sound.numbered hclosed .revoke)
  refine ⟨?_, fun later => ?_⟩
  · rw [← calledOff_revoke_iff ht hclosed]
    exact ⟨fun hoff => hoff [], fun hoff later => hoff.later (hlater later)⟩
  · rw [map_number_eq (hlater later), map_number_eq (step_of_closed ht.sound.numbered
      hclosed.closed .revoke).1, map_number_eq (later_run hs hshut between)]
    exact map_number_eq (Shared.advances_shut s.shared).later

/-- A load that was given up by the only one who waited for it, before the one that is present at
closing: closing puts an end to all loads. -/
theorem calledOff_after_cancel :
    ((fresh "/ws" none : Session String).run
      [.ask .get, .begin, .ask .reload, .begin, .cancel 0]).shared.closed = false ∧
    ∀ later, ((((fresh "/ws" none : Session String).run
      [.ask .get, .begin, .ask .reload, .begin, .cancel 0, .shut, .ask .get]).step .revoke).run
        later).shared.CalledOff := by
  have hopen : ((fresh "/ws" none : Session String).run
      [.ask .get, .begin, .ask .reload, .begin, .cancel 0]).shared.closed = false := rfl
  refine ⟨hopen, (calledOff_iff "/ws" none _ [.ask .get] hopen).1.mpr ?_⟩
  -- of the three calls one was cancelled, one waits for the present load and one failed
  rintro c hc ⟨g, -, hwaits, -, -, hother⟩
  have hcalls : c ∈ ([⟨.get, .cancelled, some 1⟩, ⟨.reload, .waiting 2, some 2⟩,
    ⟨.get, .done (.error Shared.closedFailure), none⟩] : List (Call String)) := hc
  simp only [List.mem_cons, List.not_mem_nil, or_false] at hcalls
  obtain rfl | rfl | rfl := hcalls
  · cases hwaits
  · exact hother (congrArg some (Status.waiting.inj hwaits))
  · cases hwaits

/-- **A load may go on after closing**: a load is asked for, and then a new one while somebody still
waits for the first. Closing calls off the second only. -/
theorem not_always_calledOff :
    ¬ ∀ events : List (Event String), ((fresh "/ws" none).run events).shared.closed = false →
      (((fresh "/ws" none).run events).step .close).shared.CalledOff := by
  intro h
  have hoff := h [.ask .get, .begin, .ask .reload, .begin] rfl
  have hfirst := hoff { number := 1, load := .running, waiters := 1 } (.tail _ (.head _)) rfl
  cases hfirst

end Session

end Concordance.Sharing
