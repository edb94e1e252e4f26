import Concordance.Proofs.Sharing.Waiting

/-!
# What callers are told

A call that is not cancelled ends with the outcome of the one generation that it captured, and that
is a value or a failure of the load. That the load was called off is nothing that a caller is told.

## Why

A load is called off for one of three reasons: it took too long, nobody waits for it, or the value
was closed. The first is noted before the load is called off, so its end is told as a failure. In
the second case there is nobody to tell, and by `Session.captured_run` there will be nobody. The
third is left out here: runs are considered in which the value is not closed.

Of whatever runs a load it has to be assumed that it says so only of a load that was called off.
`Session.Honest` is that assumption about a run; about other results nothing is assumed.

## Main results

* `Session.Faithful`: the invariant
* `Session.Faithful.run`: it holds after all events of an honest run without closing
* `Session.uncancelled_call_served`: what it says about a call
-/

namespace Concordance.Sharing

variable {α : Type}

/-- What a caller can be told: a value, or that it cannot be loaded. -/
def Verdict (r : Except Failure α) : Prop :=
  (∃ a, r = .ok a) ∨ ∃ text root, r = .error (.load text root)

/-- Whether an event closes the value. -/
def Event.closes : Event α → Bool
  | .close => true
  | .shut => true
  | _ => false

namespace Generation

/-! ### Single generations -/

/-- A generation is called off only for a reason, and only those who were aborted may have ended for
another reason than a verdict. -/
structure Fair (g : Generation α) : Prop where
  excused : g.token.cancelled = true → g.timedOut = true ∨ g.aborted = true
  verdict : g.aborted = false → ∀ r, g.outcome? = some r → Verdict r

/-- A load that was not called off, or took too long, ends with a verdict. -/
theorem verdict_conclude {g : Generation α} {result : Except Failure α}
    (h : ∀ reason, result = .error (.cancelled reason) → g.timedOut = true) (root : String)
    (limit : Option String) : Verdict (g.conclude root limit result) := by
  cases result with
  | ok a => exact .inl ⟨a, rfl⟩
  | error f =>
    cases f with
    | cancelled reason =>
      have ht : g.timedOut = true := h reason rfl
      simp only [conclude, ht, if_true]
      exact .inr ⟨_, root, rfl⟩
    | load text place => exact .inr ⟨text, place, rfl⟩
    | _ => exact .inr ⟨_, root, rfl⟩

@[simp] theorem outcome?_launch (g : Generation α) : g.launch.outcome? = g.outcome? := by
  rw [launch]
  split
  case isFalse => rfl
  case isTrue h =>
    rw [outcome?_of_isQueued h]
    rfl

/-- A load that has ended, begun for it if need be, has an outcome. -/
theorem exists_outcome_finish (g : Generation α) (root : String) (limit : Option String)
    (result : Except Failure α) : ∃ r, (g.launch.finish root limit result).outcome? = some r := by
  cases hr : g.outcome? with
  | some r =>
    have hlaunch := g.progress_launch.outcome r hr
    exact ⟨r, (g.launch.progress_finish root limit result).outcome r hlaunch⟩
  | none =>
    have hrun : g.launch.isRunning = true := by
      rw [launch]
      split
      case isTrue => rfl
      case isFalse hq => exact isRunning_of_isQueued_eq_false (by simpa using hq) hr
    rw [finish, if_pos hrun]
    exact ⟨_, rfl⟩

theorem Fair.launch {g : Generation α} (h : g.Fair) : g.launch.Fair := by
  refine ⟨fun hc => ?_, fun ha r hr => ?_⟩
  · rw [Generation.launch] at hc ⊢
    split at hc <;> rename_i hq
    · rw [if_pos hq]
      exact h.excused hc
    · rw [if_neg hq]
      exact h.excused hc
  · rw [(progress_launch g).aborted_eq] at ha
    rw [outcome?_launch] at hr
    exact h.verdict ha r hr

theorem Fair.finish {g : Generation α} (h : g.Fair) {result : Except Failure α}
    (honest : g.isRunning = true → ∀ reason, result = .error (.cancelled reason) →
      g.token.cancelled = true) (root : String) (limit : Option String) :
    (g.finish root limit result).Fair := by
  rw [Generation.finish]
  split
  case isFalse => exact h
  case isTrue hrun =>
    refine ⟨h.excused, fun ha r hr => ?_⟩
    obtain rfl : g.conclude root limit result = r := by simpa using hr
    refine verdict_conclude (fun reason hreason => ?_) root limit
    rcases h.excused (honest hrun reason hreason) with ht | ha'
    · exact ht
    · rw [show g.aborted = false from ha] at ha'
      cases ha'

theorem Fair.expire {g : Generation α} (h : g.Fair) : g.expire.Fair := by
  rw [Generation.expire]
  split
  · exact h
  · exact ⟨fun _ => .inl rfl, h.verdict⟩

theorem Fair.giveUp {g : Generation α} (h : g.Fair) (limit : String) : (g.giveUp limit).Fair := by
  rw [Generation.giveUp]
  split
  case isFalse => exact h
  case isTrue ht => exact ⟨fun _ => .inl ht, h.verdict⟩

theorem Fair.attach {g : Generation α} (h : g.Fair) : g.attach.Fair := ⟨h.excused, h.verdict⟩

theorem Fair.left {g : Generation α} (h : g.Fair) (cancelled : Bool) : (g.left cancelled).Fair := by
  rw [Generation.left]
  split
  · exact ⟨fun _ => .inr rfl, fun ha => by cases ha⟩
  · exact ⟨h.excused, h.verdict⟩

end Generation

namespace Shared

/-! ### Generations together -/

/-- The generations of a value that is not closed are fair. -/
structure Fair (s : Shared α) : Prop where
  opened : s.closed = false
  closing : s.closing = none
  generations : ∀ g ∈ s.generations, g.Fair

theorem Fair.modify {s : Shared α} (h : s.Fair) (n : Nat) {f : Generation α → Generation α}
    (hf : ∀ g ∈ s.generations, g.number = n → g.Fair → (f g).Fair) : (s.modify n f).Fair := by
  refine ⟨h.opened, h.closing, fun g' hg' => ?_⟩
  obtain ⟨g, hg, rfl⟩ := mem_modify.mp hg'
  split
  case isTrue hn => exact hf g hg hn (h.generations g hg)
  case isFalse => exact h.generations g hg

theorem Fair.launch {s : Shared α} (h : s.Fair) (n : Nat) : (s.launch n).Fair :=
  h.modify n fun _ _ _ hg => hg.launch

theorem Fair.begin {s : Shared α} (h : s.Fair) : s.begin.Fair := by
  rw [Shared.begin]
  split
  · exact h.launch _
  · exact h

theorem Fair.expire {s : Shared α} (h : s.Fair) (n : Nat) : (s.expire n).Fair := by
  rw [Shared.expire]
  split
  · exact h.modify n fun _ _ _ hg => hg.expire
  · exact h

theorem Fair.giveUp {s : Shared α} (h : s.Fair) (n : Nat) : (s.giveUp n).Fair :=
  h.modify n fun _ _ _ hg => hg.giveUp _

theorem Fair.revoke {s : Shared α} (h : s.Fair) : s.revoke.Fair := by
  rw [Shared.revoke]
  rw [h.closing]
  exact h

theorem Fair.wait {s s' : Shared α} {target : Option Nat} {n : Nat} (h : s.Fair)
    (hw : s.wait target = .ok (n, s')) : s'.Fair := by
  obtain ⟨-, ⟨-, rfl⟩ | ⟨-, -, rfl⟩⟩ := wait_eq_ok hw
  · exact h.modify n fun _ _ _ hg => hg.attach
  · have hstart : s.start.1.Fair := by
      refine ⟨h.opened, h.closing, fun g hg => ?_⟩
      rcases List.mem_cons.mp hg with rfl | hg
      · exact ⟨nofun, fun _ _ hr => by cases hr⟩
      · exact h.generations g hg
    exact hstart.modify n fun _ _ _ hg => hg.attach

theorem Fair.release {s : Shared α} (h : s.Fair) (hn : Numbered s.generations) (n : Nat)
    (cancelled : Bool) : (s.release n cancelled).Fair := by
  obtain ⟨hclosed, hclosing⟩ := closed_release s n cancelled
  refine ⟨hclosed.trans h.opened, hclosing.trans h.closing, fun g hg => ?_⟩
  rw [generations_release hn] at hg
  exact (h.modify n fun _ _ _ hg => hg.left cancelled).generations g hg

/-! ### Outcomes -/

theorem outcome?_eq {s : Shared α} (h : Numbered s.generations) {g : Generation α}
    (hg : g ∈ s.generations) : s.outcome? g.number = g.outcome? := by
  rw [outcome?, show s.find? g.number = some g from h.find?_eq hg, Option.bind_some]

/-- A change that keeps the outcome of a generation, or is about another one. -/
theorem outcome?_modify {s : Shared α} {n m : Nat} {f : Generation α → Generation α}
    (hnumber : ∀ g, (f g).number = g.number)
    (hf : n = m → ∀ g, (f g).outcome? = g.outcome?) :
    (s.modify n f).outcome? m = s.outcome? m := by
  unfold outcome?
  rw [find?_modify s n hnumber]
  cases hg : s.find? m with
  | none => rfl
  | some g =>
    have hgm := (mem_of_find? hg).2
    by_cases hn : g.number = n
    · simp [hn, hf (hn.symm.trans hgm) g]
    · simp [hn]

theorem outcome?_launch (s : Shared α) (n m : Nat) : (s.launch n).outcome? m = s.outcome? m :=
  outcome?_modify (fun g => g.progress_launch.number) fun _ g => g.outcome?_launch

theorem outcome?_begin (s : Shared α) (m : Nat) : s.begin.outcome? m = s.outcome? m := by
  rw [begin]
  split
  · exact outcome?_launch s _ m
  · rfl

theorem outcome?_finish (s : Shared α) {n m : Nat} (hne : n ≠ m) (result : Except Failure α) :
    (s.finish n result).outcome? m = s.outcome? m :=
  outcome?_modify (fun g => (g.progress_finish _ _ result).number) fun he => absurd he hne

theorem outcome?_expire (s : Shared α) (n m : Nat) : (s.expire n).outcome? m = s.outcome? m := by
  rw [expire]
  split
  · refine outcome?_modify (fun g => g.progress_expire.number) fun _ g => ?_
    rw [Generation.expire]
    split <;> rfl
  · rfl

theorem outcome?_giveUp (s : Shared α) (n m : Nat) : (s.giveUp n).outcome? m = s.outcome? m := by
  refine outcome?_modify (fun g => (g.progress_giveUp _).number) fun _ g => ?_
  rw [Generation.giveUp]
  split <;> rfl

theorem outcome?_shut (s : Shared α) (m : Nat) : s.shut.outcome? m = s.outcome? m := by
  rw [shut]
  split <;> rfl

theorem outcome?_revoke (s : Shared α) (m : Nat) : s.revoke.outcome? m = s.outcome? m := by
  rw [revoke]
  split
  · refine outcome?_modify (fun g => g.progress_revoke.number) fun _ g => ?_
    rw [Generation.revoke]
    split <;> rfl
  · rfl

theorem outcome?_wait {s s' : Shared α} {target : Option Nat} {n m : Nat}
    (hw : s.wait target = .ok (n, s')) (hm : m ≤ s.generations.length) :
    s'.outcome? m = s.outcome? m := by
  have hattach : ∀ s : Shared α, (s.attach n).outcome? m = s.outcome? m := fun s =>
    outcome?_modify (fun _ => rfl) fun _ _ => rfl
  obtain ⟨-, ⟨-, rfl⟩ | ⟨-, -, rfl⟩⟩ := wait_eq_ok hw
  · exact hattach s
  · rw [hattach]
    have hne : ¬ s.generations.length + 1 = m := by omega
    unfold outcome? find? start
    rw [List.find?_cons_of_neg (by simpa using hne)]

theorem outcome?_release (s : Shared α) (n m : Nat) (cancelled : Bool) :
    (s.release n cancelled).outcome? m = s.outcome? m := by
  have hleave : (s.modify n .leave).outcome? m = s.outcome? m :=
    outcome?_modify (fun _ => rfl) fun _ _ => rfl
  have habort : ∀ s : Shared α, (s.abort n).outcome? m = s.outcome? m := by
    intro s
    rw [← outcome?_modify (s := s) (n := n) (f := .abort) (fun _ => rfl) fun _ _ => rfl]
    unfold abort
    dsimp only
    split <;> rfl
  unfold release
  dsimp only
  split
  · split
    · rw [habort, hleave]
    · exact hleave
  · exact hleave

/-- A generation that a call waits for or was answered by. -/
def Serves (s : Shared α) (c : Call α) : Prop :=
  match c.status with
  | .waiting n => c.captured = some n ∧ ∃ g ∈ s.generations, g.number = n
  | .done r => ∃ g ∈ s.generations, c.captured = some g.number ∧ g.aborted = false ∧
      g.outcome? = some r
  | .arrived => True
  | .cancelled => True

theorem Serves.grows {s s' : Shared α} {c : Call α} (h : s.Serves c) (hg : s.Grows s') :
    s'.Serves c := by
  rw [Serves] at h ⊢
  cases hstatus : c.status with
  | arrived => trivial
  | waiting n =>
    rw [hstatus] at h
    obtain ⟨hn, g, hmem, hgn⟩ := h
    obtain ⟨g', hmem', hlater⟩ := hg.exists_later hmem
    exact ⟨hn, g', hmem', hlater.number.trans hgn⟩
  | done r =>
    rw [hstatus] at h
    obtain ⟨g, hmem, hn, hab, hr⟩ := h
    obtain ⟨g', hmem', hlater⟩ := hg.exists_later hmem
    refine ⟨g', hmem', by rw [hlater.number, hn], ?_, hlater.outcome _ hr⟩
    exact hlater.aborted_eq_false (by rw [hr]; exact Option.some_ne_none _) hab
  | cancelled => trivial

end Shared

namespace Session

/-! ### Honest runs -/

/-- A load that ends as called off was called off before. -/
def Plausible (s : Session α) (e : Event α) : Prop :=
  ∀ n reason g, e = .finish n (.error (.cancelled reason)) → s.shared.find? n = some g →
    g.isRunning = true → g.token.cancelled = true

/-- All ends of loads are plausible where they happen. -/
def Honest (s : Session α) : List (Event α) → Prop
  | [] => True
  | e :: later => s.Plausible e ∧ (s.step e).Honest later

/-- Any end of a load that was called off is plausible. -/
theorem plausible_finish {s : Session α} {n : Nat} {result : Except Failure α}
    (h : (s.shared.find? n).all (fun g => g.token.cancelled) = true) :
    s.Plausible (.finish n result) := by
  intro n' reason g he hg _
  obtain ⟨rfl, -⟩ : n = n' ∧ _ := by simpa using he
  simpa [hg] using h

/-- Every call that was not cancelled is served by a generation that is fair and not aborted. -/
structure Faithful (s : Session α) : Prop where
  attended : s.Attended
  fair : s.shared.Fair
  served : ∀ c ∈ s.calls, s.shared.Serves c

/-- A generation that a call waits for was not aborted. -/
theorem Attended.aborted_eq_false {s : Session α} (h : s.Attended) {c : Call α}
    (hc : c ∈ s.calls) {g : Generation α} (hg : g ∈ s.shared.generations)
    (hwaits : c.status = .waiting g.number) : g.aborted = false := by
  by_contra hab
  have hzero : s.waiting g.number = 0 := by
    rw [← h.waiters g hg]
    exact (h.abandoned g hg (by simpa using hab)).1
  have hnot := List.countP_eq_zero.mp hzero c hc
  exact hnot (by simp [waitsFor_of_status hwaits])

theorem Faithful.arrive {s : Session α} (h : s.Faithful) (request : Request) :
    (s.arrive request).Faithful := by
  refine ⟨h.attended.arrive request, by rw [shared_arrive]; exact h.fair, fun c hc => ?_⟩
  rw [shared_arrive]
  rcases arrive_cases s request with ⟨n, g, r, -, hn, hg, hr, he⟩ | he <;> rw [he] at hc <;>
    rcases List.mem_append.mp hc with hc | hc
  · exact h.served c hc
  · obtain rfl := List.mem_singleton.mp hc
    obtain ⟨hmem, hgn⟩ := Shared.mem_of_find? hg
    obtain ⟨g₀, hg₀, hn₀, hab⟩ := h.attended.sound.exists_of_current hn
    obtain rfl := h.attended.sound.eq_of_number hmem hg₀ (hn₀.trans hgn.symm)
    exact ⟨g₀, hmem, congrArg some hgn.symm, hab, hr⟩
  · exact h.served c hc
  · obtain rfl := List.mem_singleton.mp hc
    trivial

theorem Faithful.enter {s : Session α} (h : s.Faithful) (i : Nat) : (s.enter i).Faithful := by
  have hgrows := grows_enter s i
  have hattended := h.attended.enter i
  rcases enter_cases s i with he | ⟨c, hc, -, ⟨hclosed, -⟩ | ⟨n, shared, hw, he⟩⟩
  · rw [he]
    exact h
  · rw [h.fair.opened] at hclosed
    cases hclosed
  · rw [he] at hgrows hattended ⊢
    refine ⟨hattended, h.fair.wait hw, fun c' hc' => ?_⟩
    rcases mem_setCall hc' with hc' | ⟨c₀, hc₀, rfl⟩
    · exact (h.served c' hc').grows hgrows
    · exact ⟨rfl, h.attended.sound.exists_of_wait (fun m => current_of_target) hw⟩

theorem Faithful.advances {s : Session α} (h : s.Faithful) {shared : Shared α}
    (ha : s.shared.Advances shared) (hf : shared.Fair) : Faithful { s with shared } :=
  ⟨h.attended.advances ha, hf, fun c hc => (h.served c hc).grows ha.grows⟩

/-- A call that leaves with the outcome of its generation was not waiting for an aborted one. -/
theorem Faithful.deliver {s : Session α} (h : s.Faithful) (i : Nat) : (s.deliver i).Faithful := by
  have hattended := h.attended.deliver i
  rcases deliver_cases s i with he | ⟨c, n, g, r, hc, hwaits, hg, hr, he⟩
  · rw [he]
    exact h
  have hmem := List.mem_of_getElem? hc
  have hgrows := Shared.grows_release h.attended.sound.numbered n false
  obtain ⟨hgmem, rfl⟩ := Shared.mem_of_find? hg
  have hserves := h.served c hmem
  rw [Shared.Serves] at hserves
  rw [hwaits] at hserves
  have hdone : s.shared.Serves { c with status := .done r } :=
    ⟨g, hgmem, hserves.1, h.attended.aborted_eq_false hmem hgmem hwaits, hr⟩
  rw [he] at hattended ⊢
  refine ⟨hattended, h.fair.release h.attended.sound.numbered _ false, fun c' hc' => ?_⟩
  rcases mem_setCall hc' with hc' | ⟨c₀, hc₀, rfl⟩
  · exact (h.served c' hc').grows hgrows
  · obtain rfl := Option.some.inj (hc.symm.trans hc₀)
    exact hdone.grows hgrows

theorem Faithful.cancel {s : Session α} (h : s.Faithful) (i : Nat) : (s.cancel i).Faithful := by
  have hattended := h.attended.cancel i
  rcases cancel_cases s i with he | ⟨c, n, -, -, he⟩
  · rw [he]
    exact h
  have hgrows := Shared.grows_release h.attended.sound.numbered n true
  rw [he] at hattended ⊢
  refine ⟨hattended, h.fair.release h.attended.sound.numbered n true, fun c' hc' => ?_⟩
  rcases mem_setCall hc' with hc' | ⟨c₀, -, rfl⟩
  · exact (h.served c' hc').grows hgrows
  · trivial

theorem Faithful.finish {s : Session α} (h : s.Faithful) {n : Nat} {result : Except Failure α}
    (honest : s.Plausible (.finish n result)) :
    Faithful { s with shared := s.shared.finish n result } := by
  refine h.advances (Shared.advances_finish _ n result) (h.fair.modify n fun g hg hn hfair => ?_)
  refine hfair.finish (fun hrun reason hreason => ?_) _ _
  have hf : s.shared.find? n = some g := hn ▸ h.attended.sound.numbered.find?_eq hg
  exact honest n reason g (by rw [hreason]) hf hrun

theorem Faithful.step {s : Session α} (h : s.Faithful) {e : Event α} (hopen : e.closes = false)
    (honest : s.Plausible e) : (s.step e).Faithful := by
  cases e with
  | ask request => exact (h.arrive request).enter _
  | arrive request => exact h.arrive request
  | enter i => exact h.enter i
  | begin => exact h.advances (Shared.advances_begin _) h.fair.begin
  | launch n => exact h.advances (Shared.advances_launch _ n) (h.fair.launch n)
  | finish n result => exact h.finish honest
  | timeOut n => exact h.advances (Shared.advances_timeOut _ n) ((h.fair.expire n).giveUp n)
  | expire n => exact h.advances (Shared.advances_expire _ n) (h.fair.expire n)
  | giveUp n => exact h.advances (Shared.advances_giveUp _ n) (h.fair.giveUp n)
  | deliver i => exact h.deliver i
  | cancel i => exact h.cancel i
  | close => cases hopen
  | shut => cases hopen
  | revoke => exact h.advances (Shared.advances_revoke _) h.fair.revoke

theorem Faithful.run {s : Session α} (h : s.Faithful) {events : List (Event α)}
    (hopen : ∀ e ∈ events, e.closes = false) (honest : s.Honest events) :
    (s.run events).Faithful := by
  induction events generalizing s with
  | nil => exact h
  | cons e later ih =>
    exact ih (h.step (hopen e List.mem_cons_self) honest.1)
      (fun e' he' => hopen e' (List.mem_cons_of_mem _ he')) honest.2

theorem faithful_fresh (root : String) (limit : Option String) :
    (fresh root limit : Session α).Faithful :=
  ⟨attended_run root limit [],
    ⟨rfl, rfl, fun g hg => absurd hg (not_mem_generations_fresh root limit g)⟩,
    fun c hc => absurd hc (not_mem_calls_fresh root limit c)⟩

/-- A call that was not cancelled, once it has captured a generation. -/
theorem Faithful.exists_served {s : Session α} (h : s.Faithful) {c : Call α} (hc : c ∈ s.calls)
    (harrived : c.status ≠ .arrived) (hcancelled : c.status ≠ .cancelled) :
    ∃ g ∈ s.shared.generations, c.captured = some g.number ∧ g.aborted = false ∧
      (c.status = .waiting g.number ∨ ∃ r, c.status = .done r ∧ g.outcome? = some r) := by
  have hserves := h.served c hc
  rw [Shared.Serves] at hserves
  cases hstatus : c.status with
  | arrived => exact absurd hstatus harrived
  | cancelled => exact absurd hstatus hcancelled
  | waiting n =>
    rw [hstatus] at hserves
    obtain ⟨hcap, g, hg, rfl⟩ := hserves
    exact ⟨g, hg, hcap, h.attended.aborted_eq_false hc hg hstatus, .inl rfl⟩
  | done r =>
    rw [hstatus] at hserves
    obtain ⟨g, hg, hcap, hab, hr⟩ := hserves
    exact ⟨g, hg, hcap, hab, .inr ⟨r, rfl, hr⟩⟩

/-! ### Outcomes and calls stay -/

/-- Only the end of its own load changes the outcome of a generation. -/
theorem outcome?_step {s : Session α} {e : Event α} {n : Nat}
    (hn : n ≤ s.shared.generations.length) (he : ∀ result, e ≠ .finish n result) :
    (s.step e).shared.outcome? n = s.shared.outcome? n := by
  have henter : ∀ (s : Session α) i, n ≤ s.shared.generations.length →
      (s.enter i).shared.outcome? n = s.shared.outcome? n := by
    intro s i hn
    rcases enter_cases s i with he | ⟨c, -, -, ⟨-, he⟩ | ⟨m, shared, hw, he⟩⟩ <;> rw [he]
    · rfl
    · exact Shared.outcome?_wait hw hn
  cases e with
  | ask request =>
    rw [step, ask, henter _ _ (by rwa [shared_arrive]), shared_arrive]
  | arrive request =>
    rw [step, shared_arrive]
  | enter i => exact henter s i hn
  | begin => exact Shared.outcome?_begin _ n
  | launch m => exact Shared.outcome?_launch _ m n
  | finish m result =>
    refine Shared.outcome?_finish _ (fun hm => he result ?_) result
    rw [hm]
  | timeOut m => exact (Shared.outcome?_giveUp _ m n).trans (Shared.outcome?_expire _ m n)
  | expire m => exact Shared.outcome?_expire _ m n
  | giveUp m => exact Shared.outcome?_giveUp _ m n
  | deliver i =>
    rcases deliver_cases s i with hd | ⟨c, m, g, r, -, -, -, -, hd⟩ <;> rw [step, hd]
    exact Shared.outcome?_release _ m n false
  | cancel i =>
    rcases cancel_cases s i with hd | ⟨c, m, -, -, hd⟩ <;> rw [step, hd]
    exact Shared.outcome?_release _ m n true
  | close => exact (Shared.outcome?_revoke _ n).trans (Shared.outcome?_shut _ n)
  | shut => exact Shared.outcome?_shut _ n
  | revoke => exact Shared.outcome?_revoke _ n

/-- A call that has captured a generation, or was refused one, and that was not cancelled. -/
structure Live (s : Session α) (i : Nat) (captured : Option Nat) : Prop where
  exists_call : ∃ c, s.calls[i]? = some c ∧ c.captured = captured ∧ c.status ≠ .arrived ∧
    c.status ≠ .cancelled

theorem Live.arrive {s : Session α} {i : Nat} {n : Option Nat} (h : s.Live i n)
    (request : Request) : (s.arrive request).Live i n := by
  obtain ⟨c, hc, hlive⟩ := h.exists_call
  have hlt : i < s.calls.length := (List.getElem?_eq_some_iff.mp hc).1
  refine ⟨c, ?_, hlive⟩
  rcases arrive_cases s request with ⟨m, g, r, -, -, -, -, he⟩ | he <;> rw [he] <;>
    exact (List.getElem?_append_left hlt).trans hc

theorem Live.setCall {s : Session α} {i j : Nat} {n : Option Nat} (h : s.Live i n)
    {f : Call α → Call α} (hf : ∀ c, s.calls[i]? = some c → c.status ≠ .arrived →
      j = i → (f c).captured = c.captured ∧ (f c).status ≠ .arrived ∧ (f c).status ≠ .cancelled) :
    (s.setCall j f).Live i n := by
  obtain ⟨c, hc, hn, harr, hcan⟩ := h.exists_call
  by_cases hj : j = i
  · obtain ⟨hcap, hstatus⟩ := hf c hc harr hj
    exact ⟨f c, by rw [getElem?_setCall, if_pos hj, hc]; rfl, hcap.trans hn, hstatus⟩
  · exact ⟨c, by rw [getElem?_setCall, if_neg hj, hc], hn, harr, hcan⟩

theorem Live.enter {s : Session α} {i : Nat} {n : Option Nat} (h : s.Live i n) (j : Nat) :
    (s.enter j).Live i n := by
  have hother : ∀ {c : Call α}, s.calls[j]? = some c → c.status = .arrived → ∀ c', s.calls[i]? =
      some c' → c'.status ≠ .arrived → ¬ j = i := by
    rintro c hc harrived c' hc' hne rfl
    exact hne (Option.some.inj (hc.symm.trans hc') ▸ harrived)
  rcases enter_cases s j with he | ⟨c, hc, harrived, ⟨-, he⟩ | ⟨m, shared, -, he⟩⟩ <;> rw [he]
  · exact h
  · exact h.setCall fun c' hc' hne hj => absurd hj (hother hc harrived c' hc' hne)
  · exact ⟨(h.setCall fun c' hc' hne hj =>
      absurd hj (hother hc harrived c' hc' hne)).exists_call⟩

theorem Live.step {s : Session α} {i : Nat} {n : Option Nat} (h : s.Live i n) {e : Event α}
    (he : e ≠ .cancel i) : (s.step e).Live i n := by
  cases e with
  | ask request => exact (h.arrive request).enter _
  | arrive request => exact h.arrive request
  | enter j => exact h.enter j
  | deliver j =>
    rcases deliver_cases s j with hd | ⟨c, m, g, r, -, -, -, -, hd⟩ <;>
      rw [Session.step, hd]
    · exact h
    · exact ⟨(h.setCall (f := fun c => { c with status := .done r }) fun _ _ _ _ =>
        ⟨rfl, by simp, by simp⟩).exists_call⟩
  | cancel j =>
    rcases cancel_cases s j with hd | ⟨c, m, -, -, hd⟩ <;>
      rw [Session.step, hd]
    · exact h
    · exact ⟨(h.setCall (f := fun c => { c with status := .cancelled }) fun _ _ _ hj =>
        absurd (congrArg Event.cancel hj) he).exists_call⟩
  | _ => exact ⟨h.exists_call⟩

theorem Live.run {s : Session α} {i : Nat} {n : Option Nat} (h : s.Live i n)
    {later : List (Event α)} (hlater : ∀ e ∈ later, e ≠ .cancel i) : (s.run later).Live i n := by
  induction later generalizing s with
  | nil => exact h
  | cons e later ih =>
    exact ih (h.step (hlater e List.mem_cons_self))
      fun e' he' => hlater e' (List.mem_cons_of_mem _ he')

/-- A call that was not cancelled waits for its generation, or was told the outcome of it. -/
theorem Faithful.served_of_live {s : Session α} (h : s.Faithful) {i n : Nat}
    (hlive : s.Live i (some n)) :
    ∃ c, s.calls[i]? = some c ∧ c.captured = some n ∧
      (c.status = .waiting n ∨
        ∃ r, c.status = .done r ∧ s.shared.outcome? n = some r ∧ Verdict r) := by
  obtain ⟨c, hc, hn, harrived, hcancelled⟩ := hlive.exists_call
  obtain ⟨g, hg, hcap, hab, hstatus⟩ :=
    h.exists_served (List.mem_of_getElem? hc) harrived hcancelled
  obtain rfl : g.number = n := Option.some.inj (hcap.symm.trans hn)
  refine ⟨c, hc, hn, hstatus.imp_right ?_⟩
  rintro ⟨r, hr, hout⟩
  refine ⟨r, hr, ?_, (h.fair.generations g hg).verdict hab r hout⟩
  rw [Shared.outcome?_eq h.attended.sound.numbered hg, hout]

/-- What a call was told is the outcome of the generation that it captured. -/
theorem Faithful.outcome_of_done {s : Session α} (h : s.Faithful) {i n : Nat} {c : Call α}
    {r : Except Failure α} (hlive : s.Live i (some n)) (hc : s.calls[i]? = some c)
    (hr : c.status = .done r) : s.shared.outcome? n = some r := by
  obtain ⟨c', hc', -, hserved⟩ := h.served_of_live hlive
  obtain rfl := Option.some.inj (hc.symm.trans hc')
  rcases hserved with hw | ⟨r', hr', hout, -⟩
  · rw [hr] at hw
    cases hw
  · obtain rfl : r = r' := by simpa [hr] using hr'
    exact hout

/-- An outcome stays what it is. -/
theorem outcome?_run {s : Session α} (h : s.Attended) {g : Generation α}
    (hg : g ∈ s.shared.generations) {r : Except Failure α} (hr : g.outcome? = some r)
    (later : List (Event α)) : (s.run later).shared.outcome? g.number = some r := by
  induction later generalizing s g with
  | nil => exact (Shared.outcome?_eq h.sound.numbered hg).trans hr
  | cons e later ih =>
    obtain ⟨g', hg', hlater⟩ := (grows_step h.sound.numbered e).exists_later hg
    rw [← hlater.number]
    exact ih (h.step e) hg' (hlater.outcome r hr)

/-- A call that waits is told the outcome once there is one. -/
theorem status_deliver {s : Session α} {i n : Nat} {c : Call α} {r : Except Failure α}
    (hc : s.calls[i]? = some c) (hwaits : c.status = .waiting n)
    (hr : s.shared.outcome? n = some r) :
    (s.deliver i).calls[i]? = some { c with status := .done r } := by
  have hawaited : s.awaited? i = some n := by
    obtain ⟨request, status, captured⟩ := c
    obtain rfl : status = .waiting n := hwaits
    simp only [awaited?, hc]
  rw [deliver]
  simp only [hawaited, hr]
  exact (getElem?_setStatus s i i _).trans (by rw [if_pos rfl, hc, Option.map_some])

/-- A call that was told its outcome is not told anything else. -/
theorem deliver_of_done {s : Session α} {i : Nat} {c : Call α} {r : Except Failure α}
    (hc : s.calls[i]? = some c) (hr : c.status = .done r) : s.deliver i = s := by
  have hidle : s.awaited? i = none := by
    obtain ⟨request, status, captured⟩ := c
    obtain rfl : status = .done r := hr
    simp only [awaited?, hc]
  rw [deliver, hidle]

/-- A call that has come in can start to wait, as long as the value is not closed. -/
theorem Faithful.enter_of_arrived {s : Session α} (h : s.Faithful) {i : Nat} {c : Call α}
    (hc : s.calls[i]? = some c) (harrived : c.status = .arrived) :
    ∃ n, (s.enter i).calls[i]? = some { c with status := .waiting n, captured := some n } := by
  obtain ⟨request, status, captured⟩ := c
  obtain rfl : status = .arrived := harrived
  obtain ⟨n, shared, hw⟩ : ∃ n shared, s.shared.wait (s.target request) = .ok (n, shared) := by
    unfold Shared.wait
    rw [if_neg (by simp [h.fair.opened])]
    cases s.target request <;> exact ⟨_, _, rfl⟩
  refine ⟨n, ?_⟩
  rw [Session.enter]
  simp only [hc, hw]
  rw [getElem?_setCall, if_pos rfl, hc, Option.map_some]

/-- A load that has begun and ended has an outcome. -/
theorem Attended.exists_outcome_finish {s : Session α} (h : s.Attended) {g : Generation α}
    (hg : g ∈ s.shared.generations) (result : Except Failure α) :
    ∃ r, (s.run [.launch g.number, .finish g.number result]).shared.outcome? g.number =
      some r := by
  obtain ⟨r, hr⟩ := g.exists_outcome_finish s.shared.root s.shared.limit result
  refine ⟨r, ?_⟩
  have hlaunch : (s.shared.launch g.number).find? g.number = some g.launch := by
    rw [Shared.launch, Shared.find?_modify _ _ fun g => g.progress_launch.number,
      show s.shared.find? g.number = some g from h.sound.numbered.find?_eq hg]
    simp
  have hfinish : ((s.shared.launch g.number).finish g.number result).find? g.number =
      some (g.launch.finish s.shared.root s.shared.limit result) := by
    rw [Shared.finish, Shared.find?_modify _ _ fun g => (g.progress_finish _ _ result).number,
      hlaunch]
    simp [g.progress_launch.number, Shared.launch, Shared.modify]
  rw [show (s.run [.launch g.number, .finish g.number result]).shared =
      (s.shared.launch g.number).finish g.number result from rfl,
    Shared.outcome?, hfinish, Option.bind_some, hr]

/-- A call is told the outcome once its load has begun and ended. -/
theorem Faithful.done_of_finish {s : Session α} (h : s.Faithful) {i : Nat} {g : Generation α}
    (hg : g ∈ s.shared.generations) (hlive : s.Live i (some g.number)) {result : Except Failure α}
    (honest : s.Honest [.launch g.number, .finish g.number result, .deliver i]) :
    ∃ c r, (s.run [.launch g.number, .finish g.number result, .deliver i]).calls[i]? = some c ∧
      c.captured = some g.number ∧ c.status = .done r ∧ Verdict r := by
  have hrun := h.run (by simp [Event.closes]) honest
  obtain ⟨c', hc', hcap', hserved⟩ := hrun.served_of_live (hlive.run (by simp))
  rcases hserved with hwaits | ⟨r, hr, -, hverdict⟩
  case inr => exact ⟨c', r, hc', hcap', hr, hverdict⟩
  -- A call that still waited would have waited before, and then it was told.
  set t : Session α := s.run [.launch g.number, .finish g.number result] with ht
  obtain ⟨r, hr⟩ : ∃ r, t.shared.outcome? g.number = some r :=
    h.attended.exists_outcome_finish hg result
  obtain ⟨c, hc, -, hserved⟩ := h.served_of_live hlive
  have hct : t.calls[i]? = some c := hc
  have hdeliver : (t.deliver i).calls[i]? = some c' := hc'
  rcases hserved with hw | ⟨r', hr', -, -⟩
  · rw [status_deliver hct hw hr] at hdeliver
    obtain rfl := Option.some.inj hdeliver
    cases hwaits
  · rw [deliver_of_done hct hr', hct] at hdeliver
    obtain rfl := Option.some.inj hdeliver
    rw [hr'] at hwaits
    cases hwaits

/-- **A call that is not cancelled is served by the one generation that it captured.** In a run in
which the value is not closed, and a load ends as called off only if it was, a call that has come in
can start to wait for a generation, and from then on:

* the call waits for its generation, or was told the outcome of it, which is a verdict;
* the generation was not aborted, and its load was called off only for having taken too long;
* all calls that were told an outcome of the generation were told the same;
* no event but the end of its own load changes the outcome of the generation;
* whatever happens later, short of cancelling the call, it is still served by that generation, and
  an outcome that there was stays the outcome;
* the call is not stuck: once its load has begun and ended, the call can be told the outcome. -/
theorem uncancelled_call_served (root : String) (limit : Option String) {events : List (Event α)}
    (hopen : ∀ e ∈ events, e.closes = false) (honest : (fresh root limit).Honest events) {i : Nat}
    {c : Call α} (hc : ((fresh root limit).run events).calls[i]? = some c)
    (hcancelled : c.status ≠ .cancelled) :
    let s := (fresh root limit).run events
    (c.status = .arrived ∧
      ∃ n, (s.enter i).calls[i]? = some { c with status := .waiting n, captured := some n }) ∨
    ∃ n, c.captured = some n ∧
      (c.status = .waiting n ∨ ∃ r, c.status = .done r ∧ s.shared.outcome? n = some r ∧ Verdict r) ∧
      (∀ g, s.shared.find? n = some g →
        g.aborted = false ∧ (g.token.cancelled = true → g.timedOut = true)) ∧
      (∀ (j : Nat) (d : Call α) (r r' : Except Failure α), c.status = .done r →
        s.calls[j]? = some d → d.captured = some n → d.status = .done r' → r' = r) ∧
      (∀ e : Event α, (∀ result, e ≠ .finish n result) →
        (s.step e).shared.outcome? n = s.shared.outcome? n) ∧
      (∀ later : List (Event α), (∀ e ∈ later, e.closes = false ∧ e ≠ .cancel i) →
        s.Honest later → ∃ c', (s.run later).calls[i]? = some c' ∧ c'.captured = some n ∧
          (c'.status = .waiting n ∨
            ∃ r, c'.status = .done r ∧ (s.run later).shared.outcome? n = some r ∧ Verdict r) ∧
          ∀ r, s.shared.outcome? n = some r → (s.run later).shared.outcome? n = some r) ∧
      ∀ result, s.Honest [.launch n, .finish n result, .deliver i] →
        ∃ c' r, (s.run [.launch n, .finish n result, .deliver i]).calls[i]? = some c' ∧
          c'.captured = some n ∧ c'.status = .done r ∧ Verdict r := by
  intro s
  have h : s.Faithful := (faithful_fresh root limit).run hopen honest
  by_cases harrived : c.status = .arrived
  · exact .inl ⟨harrived, h.enter_of_arrived hc harrived⟩
  right
  obtain ⟨g, hg, hcap, hab, -⟩ :=
    h.exists_served (List.mem_of_getElem? hc) harrived hcancelled
  have hnumbered := h.attended.sound.numbered
  have hlive : s.Live i (some g.number) := ⟨c, hc, hcap, harrived, hcancelled⟩
  have hout : s.shared.outcome? g.number = g.outcome? := Shared.outcome?_eq hnumbered hg
  refine ⟨g.number, hcap, ?_, fun g' hg' => ?_, fun j d r r' hr hd hdcap hr' => ?_,
    fun e he => outcome?_step (hnumbered.le_length hg) he, fun later hlater hlh => ?_,
    fun result hrh => h.done_of_finish hg hlive hrh⟩
  · obtain ⟨c', hc', -, hserved⟩ := h.served_of_live hlive
    obtain rfl := Option.some.inj (hc.symm.trans hc')
    exact hserved
  · obtain rfl := Option.some.inj ((hnumbered.find?_eq hg).symm.trans hg')
    refine ⟨hab, fun ht => ?_⟩
    exact ((h.fair.generations g hg).excused ht).resolve_right (by simp [hab])
  · have hdlive : s.Live j (some g.number) :=
      ⟨d, hd, hdcap, by rw [hr']; nofun, by rw [hr']; nofun⟩
    exact Option.some.inj ((h.outcome_of_done hdlive hd hr').symm.trans
      (h.outcome_of_done hlive hc hr))
  · have hrun := h.run (fun e he => (hlater e he).1) hlh
    obtain ⟨c', hc', hcap', hserved⟩ :=
      hrun.served_of_live (hlive.run fun e he => (hlater e he).2)
    exact ⟨c', hc', hcap', hserved, fun r hr =>
      outcome?_run h.attended hg (hout.symm.trans hr) later⟩

/-- Two calls wait for a load; one of them is cancelled, a new load is asked for, and the first load
takes too long. -/
def lateLoad : List (Event Nat) :=
  [.ask .get, .ask .get, .begin, .cancel 0, .ask .reload, .expire 1, .giveUp 1,
    .finish 1 (.error (.cancelled "Load exceeded 5s")), .deliver 1]

/-- The call that is left is told that the load that it captured took too long. -/
theorem uncancelled_call_served_lateLoad :
    let s := (fresh "/ws" (some "5")).run lateLoad
    let r : Except Failure Nat := .error (.load "Loading /ws timed out after 5s" "/ws")
    s.calls[1]? = some ⟨.get, .done r, some 1⟩ ∧ s.shared.outcome? 1 = some r ∧ Verdict r ∧
      s.shared.current = some 2 := by
  intro s r
  have hopen : ∀ e ∈ lateLoad, e.closes = false := by simp [lateLoad, Event.closes]
  have honest : (fresh "/ws" (some "5")).Honest lateLoad := by
    have hother : ∀ (s : Session Nat) (e : Event Nat), (∀ n result, e ≠ .finish n result) →
        s.Plausible e := fun _ _ hne _ _ _ he => absurd he (hne _ _)
    refine ⟨hother _ _ nofun, hother _ _ nofun, hother _ _ nofun, hother _ _ nofun,
      hother _ _ nofun, hother _ _ nofun, hother _ _ nofun, ?_, hother _ _ nofun, trivial⟩
    exact plausible_finish (by decide +kernel)
  have hc : s.calls[1]? = some ⟨.get, .done r, some 1⟩ := rfl
  rcases uncancelled_call_served "/ws" (some "5") hopen honest hc nofun with
    ⟨harrived, -⟩ | ⟨n, hn, hserved, -⟩
  · cases harrived
  obtain rfl : 1 = n := Option.some.inj hn
  rcases hserved with hw | ⟨r', hr', hout, hverdict⟩
  · cases hw
  obtain rfl : r = r' := by simpa using hr'
  exact ⟨hc, hout, hverdict, rfl⟩

end Session

end Concordance.Sharing
