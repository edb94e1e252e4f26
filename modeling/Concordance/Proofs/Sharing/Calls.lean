import Concordance.Proofs.Sharing.Later

/-!
# What becomes of a call

The steps of a session that concern a call, each with everything it can do: a call comes in, starts
to wait, is told an outcome or is cancelled, or nothing happens. All that is proved about calls is
proved from these four lemmas, together with what `Concordance.Proofs.Sharing.Later` says about
generations.

Runs are lists of events. `Session.run_induction` is the one induction over them.

## Main results

* `Session.arrive_cases`, `Session.enter_cases`, `Session.deliver_cases`, `Session.cancel_cases`
* `Session.run_induction`: what every step keeps is kept by every run
-/

namespace Concordance.Sharing.Session

variable {α : Type} {s : Session α}

/-! ### Runs -/

/-- **What every step keeps is kept by every run.** -/
theorem run_induction {P : Session α → Prop} (hstep : ∀ s e, P s → P (s.step e)) (h : P s)
    (events : List (Event α)) : P (s.run events) := by
  induction events generalizing s with
  | nil => exact h
  | cons e events ih => exact ih (hstep s e h)

theorem not_mem_generations_fresh (root : String) (limit : Option String) (g : Generation α) :
    ¬ g ∈ (fresh root limit).shared.generations :=
  List.not_mem_nil

theorem not_mem_calls_fresh (root : String) (limit : Option String) (c : Call α) :
    ¬ c ∈ (fresh root limit).calls :=
  List.not_mem_nil

/-! ### Single steps -/

/-- A call that comes in is answered by the present generation, or has captured none yet. -/
theorem arrive_cases (s : Session α) (request : Request) :
    (∃ n g r, request ≠ .reload ∧ s.shared.current = some n ∧ s.shared.find? n = some g ∧
        g.outcome? = some r ∧
        s.arrive request = { s with calls := s.calls ++ [⟨request, .done r, some n⟩] }) ∨
      s.arrive request = { s with calls := s.calls ++ [⟨request, .arrived, none⟩] } := by
  rw [arrive]
  split
  case h_2 => exact .inr rfl
  case h_1 r hr =>
    split at hr
    case isTrue => cases hr
    case isFalse hne =>
      obtain ⟨g, hg, hr⟩ := Option.bind_eq_some_iff.mp hr
      obtain ⟨n, hn, hg⟩ := Option.bind_eq_some_iff.mp hg
      exact .inl ⟨n, g, r, hne, hn, hg, hr, by rw [hn]⟩

@[simp] theorem shared_arrive (s : Session α) (request : Request) :
    (s.arrive request).shared = s.shared := by
  rcases arrive_cases s request with ⟨n, g, r, -, -, -, -, h⟩ | h <;> rw [h]

/-- A call that has come in captures a generation and waits for it, or is refused. -/
theorem enter_cases (s : Session α) (i : Nat) :
    s.enter i = s ∨
      ∃ c, s.calls[i]? = some c ∧ c.status = .arrived ∧
        (s.shared.closed = true ∧
            s.enter i = s.setStatus i (.done (.error Shared.closedFailure)) ∨
          ∃ n shared, s.shared.wait (s.target c.request) = .ok (n, shared) ∧
            s.enter i = { s.setCall i (fun c => { c with status := .waiting n, captured := some n })
              with shared }) := by
  rw [enter]
  split
  case h_2 => exact .inl rfl
  case h_1 request captured hc =>
    refine .inr ⟨_, hc, rfl, ?_⟩
    split
    case h_1 n shared hw => exact .inr ⟨n, shared, hw, rfl⟩
    case h_2 f hw =>
      unfold Shared.wait at hw
      split at hw
      case isTrue hclosed =>
        obtain rfl : Shared.closedFailure = f := by simpa using hw
        exact .inl ⟨hclosed, rfl⟩
      case isFalse =>
        split at hw <;> cases hw

theorem current_of_target {request : Request} {n : Nat} (h : s.target request = some n) :
    s.shared.current = some n := by
  rw [target] at h
  split at h
  · cases h
  · exact h

theorem awaited?_eq_some {i n : Nat} (h : s.awaited? i = some n) :
    ∃ c, s.calls[i]? = some c ∧ c.status = .waiting n := by
  rw [awaited?] at h
  split at h
  case h_1 request m captured hc =>
    obtain rfl := Option.some.inj h
    exact ⟨_, hc, rfl⟩
  case h_2 => cases h

/-- A call that waits is told the outcome of the generation, if there is one. -/
theorem deliver_cases (s : Session α) (i : Nat) :
    s.deliver i = s ∨
      ∃ c n g r, s.calls[i]? = some c ∧ c.status = .waiting n ∧ s.shared.find? n = some g ∧
        g.outcome? = some r ∧
        s.deliver i = { s.setStatus i (.done r) with shared := s.shared.release n false } := by
  rw [deliver]
  split
  case h_1 => exact .inl rfl
  case h_2 n hn =>
    obtain ⟨c, hc, hstatus⟩ := awaited?_eq_some hn
    split
    case h_2 => exact .inl rfl
    case h_1 r hr =>
      obtain ⟨g, hg, hr⟩ := Option.bind_eq_some_iff.mp hr
      exact .inr ⟨c, n, g, r, hc, hstatus, hg, hr, rfl⟩

/-- A call that waits leaves without an outcome when it is cancelled. -/
theorem cancel_cases (s : Session α) (i : Nat) :
    s.cancel i = s ∨
      ∃ c n, s.calls[i]? = some c ∧ c.status = .waiting n ∧
        s.cancel i = { s.setStatus i .cancelled with shared := s.shared.release n true } := by
  rw [cancel]
  split
  case h_2 => exact .inl rfl
  case h_1 n hn =>
    obtain ⟨c, hc, hstatus⟩ := awaited?_eq_some hn
    exact .inr ⟨c, n, hc, hstatus, rfl⟩

theorem getElem?_setCall (s : Session α) (i j : Nat) (f : Call α → Call α) :
    (s.setCall i f).calls[j]? = if i = j then (s.calls[j]?).map f else s.calls[j]? := by
  rw [setCall]
  by_cases h : i = j <;> simp [h]

theorem getElem?_setStatus (s : Session α) (i j : Nat) (status : Status α) :
    (s.setStatus i status).calls[j]? =
      if i = j then (s.calls[j]?).map fun c => { c with status } else s.calls[j]? :=
  getElem?_setCall s i j _

theorem mem_setCall {i : Nat} {f : Call α → Call α} {c : Call α} (h : c ∈ (s.setCall i f).calls) :
    c ∈ s.calls ∨ ∃ c₀, s.calls[i]? = some c₀ ∧ c = f c₀ := by
  obtain ⟨j, hj⟩ := List.mem_iff_getElem?.mp h
  rw [getElem?_setCall] at hj
  split at hj
  case isTrue hij =>
    obtain ⟨c₀, hc₀, rfl⟩ := Option.map_eq_some_iff.mp hj
    exact .inr ⟨c₀, hij ▸ hc₀, rfl⟩
  case isFalse => exact .inl (List.mem_of_getElem? hj)

/-- What a call has captured does not depend on how far it has come. -/
theorem exists_of_captured_setStatus {i j n : Nat} {status : Status α} {c' : Call α}
    (hc' : (s.setStatus i status).calls[j]? = some c') (hn : c'.captured = some n) :
    ∃ c, s.calls[j]? = some c ∧ c.captured = some n := by
  rw [getElem?_setStatus] at hc'
  split at hc'
  · obtain ⟨c, hc, rfl⟩ := Option.map_eq_some_iff.mp hc'
    exact ⟨c, hc, hn⟩
  · exact ⟨c', hc', hn⟩

/-! ### Generations along a run -/

theorem grows_enter (s : Session α) (i : Nat) : s.shared.Grows (s.enter i).shared := by
  rcases enter_cases s i with he | ⟨c, -, -, ⟨-, he⟩ | ⟨n, shared, hw, he⟩⟩ <;> rw [he]
  · exact Shared.Grows.refl _
  · exact Shared.Grows.refl _
  · exact Shared.grows_wait hw

theorem grows_step {s : Session α} (h : Shared.Numbered s.shared.generations) (e : Event α) :
    s.shared.Grows (s.step e).shared := by
  cases e with
  | ask request =>
    have hgrows := grows_enter (s.arrive request) s.calls.length
    rwa [shared_arrive] at hgrows
  | arrive request =>
    rw [step, shared_arrive]
    exact Shared.Grows.refl _
  | enter i => exact grows_enter s i
  | begin => exact (Shared.advances_begin _).grows
  | launch n => exact (Shared.advances_launch _ n).grows
  | finish n result => exact (Shared.advances_finish _ n result).grows
  | timeOut n => exact (Shared.advances_timeOut _ n).grows
  | expire n => exact (Shared.advances_expire _ n).grows
  | giveUp n => exact (Shared.advances_giveUp _ n).grows
  | deliver i =>
    rcases deliver_cases s i with he | ⟨c, n, g, r, -, -, -, -, he⟩ <;>
      rw [step, he]
    · exact Shared.Grows.refl _
    · exact Shared.grows_release h n false
  | cancel i =>
    rcases cancel_cases s i with he | ⟨c, n, -, -, he⟩ <;>
      rw [step, he]
    · exact Shared.Grows.refl _
    · exact Shared.grows_release h n true
  | close => exact (Shared.advances_close _).grows
  | shut => exact (Shared.advances_shut _).grows
  | revoke => exact (Shared.advances_revoke _).grows

end Concordance.Sharing.Session
