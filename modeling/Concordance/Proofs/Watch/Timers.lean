import Concordance.Watch.Watcher
import Mathlib.Data.List.Basic

/-!
# Changes and their timers

A change starts a timer in place of the pending one, so that of the timers of a burst of changes
only the last one runs out. A timer that has run out forgets the pending timer, whichever that is.
Mostly it is the timer itself. But if a change has come in between it is the timer of that change,
which then runs without being pending: neither a later change nor a stop can cancel it any more.

No change is lost by that, since a timer makes its call whether it is pending or not. What is lost
is that a burst leads to one call only, and that no timer runs after a stop. Both hold as long as
every timer that runs is pending, and it is said below exactly for which runs that is.

## Main definitions

* `Stage.isLive`: the stages in which a timer has its call before it
* `Watcher.Tracked`: every timer that runs is pending
* `Watcher.Orderly`: the runs in which no timer is forgotten while it runs
* `Watcher.bursts`, `Watcher.dropped`: the bursts of changes, and those that a stop puts an end to

## Main results

* `Watcher.change_leads_to_call`: a change that no call and no stop has followed has a timer
* `Watcher.tracked_iff_orderly`: in which runs timers are pending while they run, and what follows
-/

namespace Concordance.Watch

/-- Whether a timer has its call before it. -/
def Stage.isLive : Stage → Bool
  | .armed | .expired | .calling => true
  | .finished | .cancelled => false

namespace Watcher

variable {w : Watcher} {e : Event} {n i : Nat}

theorem run_append (w : Watcher) (before after : List Event) :
    w.run (before ++ after) = (w.run before).run after :=
  List.foldl_append

/-! ### Steps of timers

Every step of a timer is the same: if it is at one stage, it goes on to another one. -/

theorem modify_armed (timers : List Stage) (i : Nat) (s : Stage) :
    timers.modify i (fun t => if t = .armed then s else t) =
      if timers[i]? = some .armed then timers.set i s else timers := by
  rw [List.modify_eq_set_getElem?]
  cases hi : timers[i]? with
  | none => simp
  | some t =>
    obtain ⟨hlt, rfl⟩ := List.getElem?_eq_some_iff.mp hi
    by_cases ht : timers[i] = .armed
    · simp [ht]
    · simp [ht]

theorem cancelTimer_eq (w : Watcher) (i : Nat) :
    w.cancelTimer i =
      if w.timers[i]? = some .armed then { w with timers := w.timers.set i .cancelled } else w := by
  rw [cancelTimer, modify_armed]
  split <;> rfl

theorem expire_eq (w : Watcher) (i : Nat) :
    w.expire i =
      if w.timers[i]? = some .armed then { w with timers := w.timers.set i .expired } else w := by
  rw [expire, modify_armed]
  split <;> rfl

@[simp] theorem calls_cancelPending (w : Watcher) : w.cancelPending.calls = w.calls := by
  rw [cancelPending]
  split <;> rfl

@[simp] theorem length_cancelPending (w : Watcher) :
    w.cancelPending.timers.length = w.timers.length := by
  rw [cancelPending]
  split
  · exact List.length_modify ..
  · rfl

/-! ### No change is lost -/

/-- One of the timers from a place on has its call before it. -/
def Awaits (w : Watcher) (n : Nat) : Prop := ∃ i s, n ≤ i ∧ w.timers[i]? = some s ∧ s.isLive

theorem awaits_notify (h : n ≤ w.timers.length) : w.notify.Awaits n :=
  ⟨w.cancelPending.timers.length, .armed, by simpa using h, List.getElem?_concat_length, rfl⟩

theorem Awaits.set (h : w.Awaits n) {w' : Watcher} {s : Stage} (hs : s.isLive)
    (hw' : w'.timers = w.timers.set i s) : w'.Awaits n := by
  obtain ⟨j, t, hn, hj, hlive⟩ := h
  rw [Awaits, hw']
  by_cases hij : i = j
  · subst hij
    exact ⟨i, s, hn, List.getElem?_set_self (List.getElem?_eq_some_iff.mp hj).1, hs⟩
  · exact ⟨j, t, hn, (List.getElem?_set_ne hij).trans hj, hlive⟩

/-- Only a stop or a call can leave a change without a timer. -/
theorem Awaits.step (h : w.Awaits n) (hstop : e ≠ .stop) (hcalls : (w.step e).calls = w.calls) :
    (w.step e).Awaits n := by
  cases e with
  | notify =>
    obtain ⟨j, t, hn, hj, -⟩ := h
    have hlt := (List.getElem?_eq_some_iff.mp hj).1
    exact awaits_notify (by omega)
  | expire j =>
    rw [Watcher.step, expire_eq]
    split
    · exact h.set rfl rfl
    · exact h
  | forget j =>
    rw [Watcher.step, forget]
    split
    · exact h.set rfl rfl
    · exact h
  | call j result =>
    rw [Watcher.step, call] at hcalls ⊢
    split at hcalls
    case isTrue => exact absurd hcalls (Nat.succ_ne_self _)
    case isFalse hj =>
      rw [if_neg hj]
      exact h
  | stop => exact absurd rfl hstop

theorem calls_le_step (w : Watcher) (e : Event) : w.calls ≤ (w.step e).calls := by
  cases e with
  | notify => exact Nat.le_of_eq (calls_cancelPending w).symm
  | expire i => exact Nat.le_refl _
  | forget i =>
    rw [step, forget]
    split <;> exact Nat.le_refl _
  | call i result =>
    rw [step, call]
    split
    · exact Nat.le_succ _
    · exact Nat.le_refl _
  | stop => exact Nat.le_of_eq (calls_cancelPending w).symm

theorem calls_le_run (w : Watcher) (events : List Event) : w.calls ≤ (w.run events).calls := by
  induction events generalizing w with
  | nil => exact Nat.le_refl _
  | cons e events ih => exact Nat.le_trans (calls_le_step w e) (ih (w.step e))

theorem Awaits.run (h : w.Awaits n) {events : List Event} (hstop : .stop ∉ events)
    (hcalls : (w.run events).calls = w.calls) : (w.run events).Awaits n := by
  induction events generalizing w with
  | nil => exact h
  | cons e events ih =>
    have hfirst := calls_le_step w e
    have hrest := calls_le_run (w.step e) events
    have hrun : (w.run (e :: events)).calls = ((w.step e).run events).calls := rfl
    have hstep : (w.step e).Awaits n :=
      h.step (fun he => hstop (he ▸ List.mem_cons_self)) (by omega)
    exact ih hstep (fun hmem => hstop (List.mem_cons_of_mem e hmem)) (by omega)

theorem calls_call (h : w.timers[i]? = some .calling) : (w.call i).calls = w.calls + 1 := by
  rw [call, if_pos h]

theorem calls_call_forget (h : w.timers[i]? = some .expired) :
    ((w.forget i).call i).calls = w.calls + 1 := by
  rw [forget, if_pos h]
  exact calls_call (List.getElem?_set_self (List.getElem?_eq_some_iff.mp h).1)

/-- A timer that has its call before it makes it by steps of its own. -/
theorem calls_of_isLive {s : Stage} (hi : w.timers[i]? = some s) (hlive : s.isLive)
    (result : Except Failure Unit) :
    (w.run [.expire i, .forget i, .call i result]).calls = w.calls + 1 := by
  show (((w.expire i).forget i).call i).calls = w.calls + 1
  rw [expire_eq]
  cases s with
  | armed =>
    rw [if_pos hi]
    exact calls_call_forget (List.getElem?_set_self (List.getElem?_eq_some_iff.mp hi).1)
  | expired =>
    rw [if_neg (by simp [hi])]
    exact calls_call_forget hi
  | calling =>
    rw [if_neg (by simp [hi]), forget, if_neg (by simp [hi])]
    exact calls_call hi
  | finished => cases hlive
  | cancelled => cases hlive

/-- **No change is lost.** If neither a call nor a stop has come after a change, a timer that was
started by this change or a later one has its call before it; and it makes that call by steps of its
own, whatever comes of it. -/
theorem change_leads_to_call (before after : List Event) (hstop : .stop ∉ after)
    (hcalls : (run {} (before ++ .notify :: after)).calls =
      (run {} (before ++ [.notify])).calls) :
    let w := run {} (before ++ .notify :: after)
    ∃ i s, (run {} before).timers.length ≤ i ∧ w.timers[i]? = some s ∧ s.isLive ∧
      ∀ result, (w.run [.expire i, .forget i, .call i result]).calls = w.calls + 1 := by
  intro w
  have hw : w = (run {} before).notify.run after := run_append {} before (.notify :: after)
  rw [run_append, run_append] at hcalls
  obtain ⟨i, s, hn, hi, hlive⟩ := (awaits_notify (Nat.le_refl _)).run hstop hcalls
  rw [← hw] at hi
  exact ⟨i, s, hn, hi, hlive, calls_of_isLive hi hlive⟩

/-- The timer of a change that comes while another one has run out may be forgotten and a further
change may start one more timer: one of the two makes its call. -/
theorem change_leads_to_call_forgotten :
    let before : List Event := [.notify, .expire 0]
    let after : List Event := [.forget 0, .notify, .expire 1]
    .stop ∉ after ∧
      (run {} (before ++ .notify :: after)).calls = (run {} (before ++ [.notify])).calls ∧
      ∃ i, 1 ≤ i ∧ ((run {} (before ++ .notify :: after)).run
        [.expire i, .forget i, .call i (.ok ())]).calls = 1 := by
  intro before after
  have hstop : .stop ∉ after := by simp [after]
  have hcalls : (run {} (before ++ .notify :: after)).calls =
      (run {} (before ++ [.notify])).calls := rfl
  obtain ⟨i, s, hi, -, -, hcall⟩ := change_leads_to_call before after hstop hcalls
  exact ⟨hstop, hcalls, i, hi, hcall (.ok ())⟩

/-! ### Timers that run are pending -/

/-- Every timer that runs is the pending one, so that there is one at most. -/
def Tracked (w : Watcher) : Prop := ∀ i, w.timers[i]? = some .armed → w.pending = some i

/-- A timer that has run out comes to forget the pending one while a timer runs. -/
def Loses (w : Watcher) : Event → Prop
  | .forget i => w.timers[i]? = some .expired ∧ Stage.armed ∈ w.timers
  | _ => False

instance (w : Watcher) : (e : Event) → Decidable (w.Loses e)
  | .forget _ => inferInstanceAs (Decidable (_ ∧ _))
  | .notify | .expire _ | .call _ _ | .stop => inferInstanceAs (Decidable False)

/-- No timer is forgotten while it runs. -/
def Orderly (w : Watcher) : List Event → Prop
  | [] => True
  | e :: rest => ¬ w.Loses e ∧ Orderly (w.step e) rest

instance decidableOrderly (w : Watcher) : (events : List Event) → Decidable (w.Orderly events)
  | [] => inferInstanceAs (Decidable True)
  | e :: rest =>
    have := decidableOrderly (w.step e) rest
    inferInstanceAs (Decidable (¬ w.Loses e ∧ (w.step e).Orderly rest))

theorem armed_mem_iff : Stage.armed ∈ w.timers ↔ ∃ i : Nat, w.timers[i]? = some .armed :=
  List.mem_iff_getElem?

theorem tracked_of_notMem (h : Stage.armed ∉ w.timers) : w.Tracked := fun i hi =>
  absurd (armed_mem_iff.mpr ⟨i, hi⟩) h

/-- A timer that does not come to run leaves the others as they were. -/
theorem armed_of_set {timers : List Stage} {j : Nat} {s : Stage} (hs : s ≠ .armed)
    (h : (timers.set i s)[j]? = some .armed) : timers[j]? = some .armed := by
  rw [List.getElem?_set] at h
  split at h
  case isFalse => exact h
  case isTrue =>
    split at h
    case isTrue => exact absurd (Option.some.inj h) hs
    case isFalse => cases h

theorem Tracked.set (h : w.Tracked) {w' : Watcher} {s : Stage} (hs : s ≠ .armed)
    (hw' : w'.timers = w.timers.set i s) (hpending : w'.pending = w.pending) : w'.Tracked := by
  intro j hj
  rw [hw'] at hj
  rw [hpending]
  exact h j (armed_of_set hs hj)

theorem cancelPending_of_notMem (h : Stage.armed ∉ w.timers) : w.cancelPending = w := by
  rw [cancelPending]
  split
  case h_1 i _ =>
    rw [cancelTimer_eq, if_neg fun hi => h (armed_mem_iff.mpr ⟨i, hi⟩)]
  case h_2 => rfl

theorem Tracked.cancelPending_eq (h : w.Tracked) (hi : w.timers[i]? = some .armed) :
    w.cancelPending = { w with timers := w.timers.set i .cancelled } := by
  have hpending := h i hi
  rw [cancelPending, hpending]
  dsimp only
  rw [cancelTimer_eq, if_pos hi, hpending]

/-- When the pending timer is cancelled, none is left that runs. -/
theorem Tracked.armed_notMem (h : w.Tracked) : Stage.armed ∉ w.cancelPending.timers := by
  by_cases hruns : Stage.armed ∈ w.timers
  · obtain ⟨i, hi⟩ := armed_mem_iff.mp hruns
    rw [h.cancelPending_eq hi, armed_mem_iff]
    rintro ⟨j, hj⟩
    obtain rfl : i = j :=
      Option.some.inj ((h i hi).symm.trans (h j (armed_of_set (by decide) hj)))
    rw [List.getElem?_set_self (List.getElem?_eq_some_iff.mp hi).1] at hj
    cases hj
  · rwa [cancelPending_of_notMem hruns]

theorem Tracked.notify (h : w.Tracked) : w.notify.Tracked := by
  intro i hi
  rw [Watcher.notify, List.getElem?_append] at hi
  split at hi
  case isTrue => exact absurd (armed_mem_iff.mpr ⟨i, hi⟩) h.armed_notMem
  case isFalse hle =>
    have hlt := (List.getElem?_eq_some_iff.mp hi).1
    rw [List.length_singleton] at hlt
    have hlast : w.cancelPending.timers.length = i := by omega
    exact congrArg some hlast

theorem Tracked.step (h : w.Tracked) (he : ¬ w.Loses e) : (w.step e).Tracked := by
  cases e with
  | notify => exact h.notify
  | expire i =>
    rw [Watcher.step, expire_eq]
    split
    · exact h.set (s := .expired) (by decide) rfl rfl
    · exact h
  | forget i =>
    rw [Watcher.step, forget]
    split
    case isFalse => exact h
    case isTrue hi =>
      have hnone : Stage.armed ∉ w.timers := fun hruns => he ⟨hi, hruns⟩
      refine tracked_of_notMem fun hruns => ?_
      obtain ⟨j, hj⟩ := armed_mem_iff.mp hruns
      exact hnone (armed_mem_iff.mpr ⟨j, armed_of_set (by decide) hj⟩)
  | call i result =>
    rw [Watcher.step, call]
    split
    · exact h.set (s := .finished) (by decide) rfl rfl
    · exact h
  | stop => exact tracked_of_notMem h.armed_notMem

/-- A timer that is forgotten while it runs is not pending any more. -/
theorem not_tracked_of_loses (he : w.Loses e) : ¬ (w.step e).Tracked := by
  cases e with
  | forget i =>
    obtain ⟨hi, hruns⟩ := he
    obtain ⟨j, hj⟩ := armed_mem_iff.mp hruns
    have hij : i ≠ j := by
      rintro rfl
      rw [hi] at hj
      cases hj
    rw [step, forget, if_pos hi]
    intro htracked
    cases htracked j ((List.getElem?_set_ne hij).trans hj)
  | _ => exact he.elim

/-- Every timer that runs is pending, all the time, exactly if none is forgotten while it runs. -/
theorem Tracked.forall_prefix_iff (h : w.Tracked) (events : List Event) :
    (∀ before, before <+: events → (w.run before).Tracked) ↔ Orderly w events := by
  induction events generalizing w with
  | nil =>
    refine ⟨fun _ => trivial, fun _ before hbefore => ?_⟩
    rw [List.prefix_nil.mp hbefore]
    exact h
  | cons e events ih =>
    constructor
    · intro hall
      have hstep : (w.step e).Tracked := hall [e] (List.prefix_append [e] events)
      refine ⟨fun he => not_tracked_of_loses he hstep, (ih hstep).mp fun before hbefore => ?_⟩
      exact hall (e :: before) ((List.prefix_cons_inj e).mpr hbefore)
    · rintro ⟨he, horderly⟩ before hbefore
      rcases List.prefix_cons_iff.mp hbefore with rfl | ⟨rest, rfl, hrest⟩
      · exact h
      · exact (ih (h.step he)).mpr horderly rest hrest

/-! ### Bursts -/

/-- The number of timers that have their call before them. -/
def live (w : Watcher) : Nat := w.timers.countP Stage.isLive

/-- Whether an event is a change that comes while no timer runs. -/
def beginsBurst (w : Watcher) : Event → Bool
  | .notify => !decide (Stage.armed ∈ w.timers)
  | _ => false

/-- Whether an event is a stop that comes while a timer runs. -/
def dropsBurst (w : Watcher) : Event → Bool
  | .stop => decide (Stage.armed ∈ w.timers)
  | _ => false

/-- The number of the events of a run for which something is so. -/
def tally (p : Watcher → Event → Bool) (w : Watcher) : List Event → Nat
  | [] => 0
  | e :: rest => (if p w e then 1 else 0) + tally p (w.step e) rest

/-- The number of bursts of changes: all the changes that come while the timer of the change before
runs belong to one. -/
def bursts : Watcher → List Event → Nat := tally beginsBurst

/-- The number of bursts that a stop puts an end to while their timer runs. -/
def dropped : Watcher → List Event → Nat := tally dropsBurst

theorem countP_set_add {timers : List Stage} {s t : Stage} (hi : timers[i]? = some s) :
    (timers.set i t).countP Stage.isLive + (if s.isLive then 1 else 0) =
      timers.countP Stage.isLive + if t.isLive then 1 else 0 := by
  obtain ⟨hlt, rfl⟩ := List.getElem?_eq_some_iff.mp hi
  have hpos : timers[i].isLive → 0 < timers.countP Stage.isLive := fun h =>
    List.countP_pos_iff.mpr ⟨_, List.getElem_mem hlt, h⟩
  rw [List.countP_set hlt]
  by_cases hlive : timers[i].isLive
  · have hone := hpos hlive
    simp only [hlive, if_true]
    omega
  · simp [hlive]

/-- Cancelling the pending timer takes the one that runs, if there is one. -/
theorem Tracked.live_cancelPending (h : w.Tracked) :
    w.cancelPending.live + (if Stage.armed ∈ w.timers then 1 else 0) = w.live := by
  by_cases hruns : Stage.armed ∈ w.timers
  · obtain ⟨i, hi⟩ := armed_mem_iff.mp hruns
    rw [h.cancelPending_eq hi, if_pos hruns]
    exact countP_set_add (t := .cancelled) hi
  · rw [cancelPending_of_notMem hruns, if_neg hruns, Nat.add_zero]

/-- What a burst of changes has come to: its timer has its call before it, it has led to a call, or
it was dropped. -/
theorem Tracked.account_step (h : w.Tracked) (e : Event) :
    (w.step e).calls + (w.step e).live + (if w.dropsBurst e then 1 else 0) =
      w.calls + w.live + if w.beginsBurst e then 1 else 0 := by
  have hcancel := h.live_cancelPending
  cases e with
  | notify =>
    have hcalls : w.notify.calls = w.calls := calls_cancelPending w
    have hlive : w.notify.live = w.cancelPending.live + 1 := List.countP_append
    show w.notify.calls + w.notify.live + 0 = _
    rw [hcalls, hlive, beginsBurst]
    by_cases hruns : Stage.armed ∈ w.timers
    · rw [if_pos hruns] at hcancel
      simp only [hruns, decide_true, Bool.not_true, Bool.false_eq_true, if_false]
      omega
    · rw [if_neg hruns] at hcancel
      simp only [hruns, decide_false, Bool.not_false, if_true]
      omega
  | expire i =>
    show (w.expire i).calls + (w.expire i).live + 0 = w.calls + w.live + 0
    rw [expire_eq]
    split
    case isFalse => rfl
    case isTrue hi =>
      have hset := countP_set_add (t := .expired) hi
      exact congrArg (w.calls + ·) (Nat.add_right_cancel hset)
  | forget i =>
    show (w.forget i).calls + (w.forget i).live + 0 = w.calls + w.live + 0
    rw [forget]
    split
    case isFalse => rfl
    case isTrue hi =>
      have hset := countP_set_add (t := .calling) hi
      exact congrArg (w.calls + ·) (Nat.add_right_cancel hset)
  | call i result =>
    show (w.call i).calls + (w.call i).live + 0 = w.calls + w.live + 0
    rw [call]
    split
    case isFalse => rfl
    case isTrue hi =>
      have hset : (w.timers.set i .finished).countP Stage.isLive + 1 = w.live :=
        countP_set_add (t := .finished) hi
      show w.calls + 1 + (w.timers.set i .finished).countP Stage.isLive = w.calls + w.live
      omega
  | stop =>
    have hcalls : w.stop.calls = w.calls := calls_cancelPending w
    have hlive : w.stop.live = w.cancelPending.live := rfl
    show w.stop.calls + w.stop.live + _ = w.calls + w.live + 0
    rw [hcalls, hlive, dropsBurst]
    by_cases hruns : Stage.armed ∈ w.timers
    · rw [if_pos hruns] at hcancel
      simp only [hruns, decide_true, if_true]
      omega
    · rw [if_neg hruns] at hcancel
      simp only [hruns, decide_false, Bool.false_eq_true, if_false]
      omega

theorem Tracked.account_run (h : w.Tracked) {events : List Event} (horderly : Orderly w events) :
    (w.run events).calls + (w.run events).live + dropped w events =
      w.calls + w.live + bursts w events := by
  induction events generalizing w with
  | nil => rfl
  | cons e events ih =>
    obtain ⟨he, hrest⟩ := horderly
    have hstep := h.account_step e
    have hrun := ih (h.step he) hrest
    simp only [bursts, dropped, tally] at hrun ⊢
    have heq : w.run (e :: events) = (w.step e).run events := rfl
    rw [heq]
    omega

/-- A fresh watcher has no timers. -/
theorem tracked_fresh : Tracked {} := tracked_of_notMem List.not_mem_nil

/-- **Timers are pending while they run exactly if none is forgotten while it runs.** In such a run,
at any point: no timer runs after a stop; and every burst of changes has a timer with its call
before it, has led to one call, or was dropped by a stop. So if none has its call before it, there
have been as many calls as bursts that were not dropped. -/
theorem tracked_iff_orderly (events : List Event) :
    ((∀ before, before <+: events → (run {} before).Tracked) ↔ Orderly {} events) ∧
    (Orderly {} events → ∀ before, before <+: events →
      let w := run {} before
      Stage.armed ∉ w.stop.timers ∧ w.calls + w.live + dropped {} before = bursts {} before) := by
  have hiff := tracked_fresh.forall_prefix_iff
  refine ⟨hiff events, fun horderly before hbefore => ?_⟩
  have hall := (hiff events).mpr horderly
  have hpart : Orderly {} before := (hiff before).mp fun first hfirst =>
    hall first (hfirst.trans hbefore)
  refine ⟨(hall before hbefore).armed_notMem, ?_⟩
  have hrun := tracked_fresh.account_run hpart
  have hzero : calls {} + live {} = 0 := rfl
  rwa [hzero, Nat.zero_add] at hrun

/-- Two changes make one burst, whose timer makes its call while the timer of a third change runs;
then a stop puts an end to that. So there is one call. -/
theorem tracked_iff_orderly_twoBursts :
    let events : List Event := [.notify, .notify, .expire 1, .forget 1, .notify,
      .call 1 (.error (.state "")), .stop]
    Orderly {} events ∧ (run {} events).live = 0 ∧ Stage.armed ∉ (run {} events).stop.timers ∧
      (run {} events).calls = 1 := by
  intro events
  have horderly : Orderly {} events := by decide
  have hlive : (run {} events).live = 0 := by decide
  obtain ⟨hstop, hcount⟩ := (tracked_iff_orderly events).2 horderly events List.prefix_rfl
  have hdropped : dropped {} events = 1 := by decide
  have hbursts : bursts {} events = 2 := by decide
  exact ⟨horderly, hlive, hstop, by omega⟩

/-- A change that comes between a timer running out and its forgetting the pending one. -/
def overtaken : List Event := [.notify, .expire 0, .notify, .forget 0]

/-- **Timers are not always pending while they run.** The timer of a change that comes while another
one has run out can be forgotten. Then it runs after a stop; and after one more change, which belongs
to the same burst, there are two calls for it. -/
theorem not_always_tracked :
    ¬ (∀ events, (run {} events).Tracked) ∧
      ¬ (∀ events, Stage.armed ∉ (run {} events).stop.timers) ∧
      ¬ (∀ events, (run {} events).live = 0 →
        (run {} events).calls + dropped {} events = bursts {} events) := by
  refine ⟨fun h => ?_, fun h => ?_, fun h => ?_⟩
  · cases h overtaken 1 rfl
  · exact h overtaken (by decide)
  · have hcount := h (overtaken ++ [.call 0 (.ok ()), .notify, .expire 1, .forget 1, .expire 2,
      .forget 2, .call 1 (.ok ()), .call 2 (.ok ())]) (by decide)
    exact absurd hcount (by decide)

end Watcher

end Concordance.Watch
