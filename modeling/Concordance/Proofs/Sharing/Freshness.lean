import Concordance.Proofs.Sharing.Verdict

/-!
# Which generation a call captures

A call captures the present generation at the step at which it is answered or starts to wait, and
stays with it. Once a call was told the outcome of a generation, that generation is never aborted,
so nobody who captures one afterwards captures an older one.

`Session.Served` differs from `Session.Faithful` in that the value may be closed and that nothing is
assumed about the ends of loads. What is lost by that is only that outcomes are verdicts, and that
calls are never refused.

## Main definitions

* `Call.Later`: what a call can become
* `Session.Served`: every call is served by a generation, or was refused
* `Drives`: a system around a session

## Main results

* `Session.Served.step`, `Drives.served_run`: the invariant along every run
* `Drives.exists_capture`: the step at which a call captures its generation
* `Drives.le_captured`: a generation captured later is no older
-/

namespace Concordance.Sharing

variable {α : Type}

/-- `c'` is what `c` can have become: a call keeps what it has captured and what it was told. -/
structure Call.Later (c c' : Call α) : Prop where
  request : c'.request = c.request
  captured : ∀ n, c.captured = some n → c'.captured = some n
  done : ∀ r, c.status = .done r → c'.status = .done r

theorem Call.Later.refl (c : Call α) : c.Later c := ⟨rfl, fun _ => id, fun _ => id⟩

/-- A call that has not been told an outcome may get another status. -/
theorem Call.Later.of_status {c : Call α} (h : ∀ r, c.status ≠ .done r) (status : Status α) :
    c.Later { c with status } :=
  ⟨rfl, fun _ => id, fun r hr => absurd hr (h r)⟩

/-- A call that was refused because the value is closed. -/
def Call.Refused (c : Call α) : Prop :=
  c.status = .done (.error Shared.closedFailure) ∧ c.captured = none

namespace Session

variable {s : Session α}

/-- Every call that has started to wait or was answered is served by a generation, or was refused;
one that has only come in has captured nothing. -/
structure Served (s : Session α) : Prop where
  attended : s.Attended
  served : ∀ c ∈ s.calls, s.shared.Serves c ∨ c.Refused
  arrived : ∀ c ∈ s.calls, c.status = .arrived → c.captured = none

/-! ### The invariant -/

theorem Served.advances (h : s.Served) {shared : Shared α} (ha : s.shared.Advances shared) :
    Served { s with shared } :=
  ⟨h.attended.advances ha, fun c hc => (h.served c hc).imp_left (·.grows ha.grows), h.arrived⟩

/-- A call that comes in leaves the others as they are. -/
theorem Served.concat (h : s.Served) {c : Call α}
    (hattended : Attended { s with calls := s.calls ++ [c] }) (hc : s.shared.Serves c)
    (harrived : c.status = .arrived → c.captured = none) :
    Served { s with calls := s.calls ++ [c] } := by
  refine ⟨hattended, fun c' hc' => ?_, fun c' hc' => ?_⟩
  · rcases List.mem_append.mp hc' with hc' | hc'
    · exact h.served c' hc'
    · rw [List.mem_singleton.mp hc']
      exact .inl hc
  · rcases List.mem_append.mp hc' with hc' | hc'
    · exact h.arrived c' hc'
    · rw [List.mem_singleton.mp hc']
      exact harrived

/-- A change of one call, while generations go on. -/
theorem Served.setCall (h : s.Served) {i : Nat} {f : Call α → Call α} {shared : Shared α}
    (hattended : Attended { s.setCall i f with shared }) (hgrows : s.shared.Grows shared)
    (hf : ∀ c, s.calls[i]? = some c →
      (shared.Serves (f c) ∨ (f c).Refused) ∧ (f c).status ≠ .arrived) :
    Served { s.setCall i f with shared } := by
  refine ⟨hattended, fun c' hc' => ?_, fun c' hc' harrived => ?_⟩
  · rcases mem_setCall hc' with hc' | ⟨c, hc, rfl⟩
    · exact (h.served c' hc').imp_left (·.grows hgrows)
    · exact (hf c hc).1
  · rcases mem_setCall hc' with hc' | ⟨c, hc, rfl⟩
    · exact h.arrived c' hc' harrived
    · exact absurd harrived (hf c hc).2

theorem Served.arrive (h : s.Served) (request : Request) : (s.arrive request).Served := by
  have hattended := h.attended.arrive request
  rcases arrive_cases s request with ⟨n, g, r, -, hn, hg, hr, he⟩ | he <;> rw [he] at hattended ⊢
  · obtain ⟨hmem, hgn⟩ := Shared.mem_of_find? hg
    obtain ⟨g₀, hg₀, hn₀, hab⟩ := h.attended.sound.exists_of_current hn
    obtain rfl := h.attended.sound.eq_of_number hmem hg₀ (hn₀.trans hgn.symm)
    exact h.concat hattended ⟨g₀, hmem, congrArg some hgn.symm, hab, hr⟩ nofun
  · exact h.concat hattended trivial fun _ => rfl

theorem Served.enter (h : s.Served) (i : Nat) : (s.enter i).Served := by
  have hattended := h.attended.enter i
  rcases enter_cases s i with he | ⟨c, hc, harrived, ⟨-, he⟩ | ⟨n, shared, hw, he⟩⟩ <;>
    rw [he] at hattended ⊢
  · exact h
  · refine h.setCall hattended (Shared.Grows.refl _) fun c' hc' => ?_
    obtain rfl := Option.some.inj (hc.symm.trans hc')
    exact ⟨.inr ⟨rfl, h.arrived c (List.mem_of_getElem? hc) harrived⟩, nofun⟩
  · refine h.setCall hattended (Shared.grows_wait hw) fun c' _ => ⟨.inl ⟨rfl, ?_⟩, nofun⟩
    exact h.attended.sound.exists_of_wait (fun m => current_of_target) hw

/-- A call that waits is served by its generation. -/
theorem Served.serves_of_waiting (h : s.Served) {c : Call α} (hc : c ∈ s.calls) {n : Nat}
    (hwaits : c.status = .waiting n) :
    c.captured = some n ∧ ∃ g ∈ s.shared.generations, g.number = n := by
  rcases h.served c hc with hserves | ⟨hrefused, -⟩
  · rw [Shared.Serves] at hserves
    rwa [hwaits] at hserves
  · rw [hwaits] at hrefused
    cases hrefused

theorem Served.deliver (h : s.Served) (i : Nat) : (s.deliver i).Served := by
  have hattended := h.attended.deliver i
  rcases deliver_cases s i with he | ⟨c, n, g, r, hc, hwaits, hg, hr, he⟩ <;>
    rw [he] at hattended ⊢
  · exact h
  have hmem := List.mem_of_getElem? hc
  have hgrows := Shared.grows_release h.attended.sound.numbered n false
  obtain ⟨hgmem, rfl⟩ := Shared.mem_of_find? hg
  have hdone : s.shared.Serves { c with status := .done r } :=
    ⟨g, hgmem, (h.serves_of_waiting hmem hwaits).1,
      h.attended.aborted_eq_false hmem hgmem hwaits, hr⟩
  refine h.setCall hattended hgrows fun c' hc' => ?_
  obtain rfl := Option.some.inj (hc.symm.trans hc')
  exact ⟨.inl (hdone.grows hgrows), nofun⟩

theorem Served.cancel (h : s.Served) (i : Nat) : (s.cancel i).Served := by
  have hattended := h.attended.cancel i
  rcases cancel_cases s i with he | ⟨c, n, -, -, he⟩ <;> rw [he] at hattended ⊢
  · exact h
  · exact h.setCall hattended (Shared.grows_release h.attended.sound.numbered n true)
      fun _ _ => ⟨.inl trivial, nofun⟩

theorem Served.step (h : s.Served) (e : Event α) : (s.step e).Served := by
  cases e with
  | ask request => exact (h.arrive request).enter _
  | arrive request => exact h.arrive request
  | enter i => exact h.enter i
  | begin => exact h.advances (Shared.advances_begin _)
  | launch n => exact h.advances (Shared.advances_launch _ n)
  | finish n result => exact h.advances (Shared.advances_finish _ n result)
  | timeOut n => exact h.advances (Shared.advances_timeOut _ n)
  | expire n => exact h.advances (Shared.advances_expire _ n)
  | giveUp n => exact h.advances (Shared.advances_giveUp _ n)
  | deliver i => exact h.deliver i
  | cancel i => exact h.cancel i
  | close => exact h.advances (Shared.advances_close _)
  | shut => exact h.advances (Shared.advances_shut _)
  | revoke => exact h.advances (Shared.advances_revoke _)

theorem served_fresh (root : String) (limit : Option String) :
    (fresh root limit : Session α).Served :=
  ⟨attended_run root limit [], fun c hc => absurd hc (not_mem_calls_fresh root limit c),
    fun c hc => absurd hc (not_mem_calls_fresh root limit c)⟩

/-- The generation that a call was told the outcome of is there, and was not aborted. -/
theorem Served.exists_of_done (h : s.Served) {c : Call α} (hc : c ∈ s.calls)
    {r : Except Failure α} (hr : c.status = .done r) {n : Nat} (hn : c.captured = some n) :
    ∃ g ∈ s.shared.generations, g.number = n ∧ g.aborted = false ∧ g.outcome? = some r := by
  rcases h.served c hc with hserves | ⟨-, hnone⟩
  · rw [Shared.Serves] at hserves
    rw [hr] at hserves
    obtain ⟨g, hg, hcap, hab, hout⟩ := hserves
    exact ⟨g, hg, Option.some.inj (hcap.symm.trans hn), hab, hout⟩
  · rw [hnone] at hn
    cases hn

/-- Only a value of a generation is told as a value. -/
theorem Served.exists_of_done_ok (h : s.Served) {c : Call α} (hc : c ∈ s.calls) {a : α}
    (ha : c.status = .done (.ok a)) :
    ∃ n, c.captured = some n ∧ s.shared.outcome? n = some (.ok a) := by
  rcases h.served c hc with hserves | ⟨hrefused, -⟩
  · rw [Shared.Serves] at hserves
    rw [ha] at hserves
    obtain ⟨g, hg, hcap, -, hout⟩ := hserves
    exact ⟨g.number, hcap, (Shared.outcome?_eq h.attended.sound.numbered hg).trans hout⟩
  · rw [ha] at hrefused
    cases hrefused

/-! ### Calls stay -/

theorem exists_later_arrive {i : Nat} {c : Call α} (hc : s.calls[i]? = some c)
    (request : Request) : (s.arrive request).calls[i]? = some c := by
  have hlt : i < s.calls.length := (List.getElem?_eq_some_iff.mp hc).1
  rcases arrive_cases s request with ⟨n, g, r, -, -, -, -, he⟩ | he <;> rw [he] <;>
    exact (List.getElem?_append_left hlt).trans hc

theorem exists_later_setCall {i j : Nat} {f : Call α → Call α} {c : Call α}
    (hc : s.calls[i]? = some c) (hf : ∀ c, s.calls[j]? = some c → c.Later (f c)) :
    ∃ c', (s.setCall j f).calls[i]? = some c' ∧ c.Later c' := by
  by_cases hj : j = i
  · subst hj
    exact ⟨f c, by rw [getElem?_setCall, if_pos rfl, hc, Option.map_some], hf c hc⟩
  · exact ⟨c, by rw [getElem?_setCall, if_neg hj, hc], .refl c⟩

theorem Served.exists_later_enter (h : s.Served) {i : Nat} {c : Call α}
    (hc : s.calls[i]? = some c) (j : Nat) :
    ∃ c', (s.enter j).calls[i]? = some c' ∧ c.Later c' := by
  rcases enter_cases s j with he | ⟨d, hd, harrived, ⟨-, he⟩ | ⟨n, shared, -, he⟩⟩ <;> rw [he]
  · exact ⟨c, hc, .refl c⟩
  · refine exists_later_setCall hc fun d' hd' => ?_
    obtain rfl := Option.some.inj (hd.symm.trans hd')
    exact .of_status (by rw [harrived]; nofun) _
  · refine exists_later_setCall hc fun d' hd' => ?_
    obtain rfl := Option.some.inj (hd.symm.trans hd')
    refine ⟨rfl, fun m hm => ?_, fun r hr => ?_⟩
    · rw [h.arrived d (List.mem_of_getElem? hd) harrived] at hm
      cases hm
    · rw [harrived] at hr
      cases hr

/-- A call stays with its generation and with what it was told. -/
theorem Served.exists_later_step (h : s.Served) {i : Nat} {c : Call α}
    (hc : s.calls[i]? = some c) (e : Event α) :
    ∃ c', (s.step e).calls[i]? = some c' ∧ c.Later c' := by
  have hleave : ∀ {j n : Nat} {d : Call α} (status : Status α), s.calls[j]? = some d →
      d.status = .waiting n → ∃ c', (s.setStatus j status).calls[i]? = some c' ∧ c.Later c' := by
    intro j n d status hd hwaits
    refine exists_later_setCall hc fun d' hd' => ?_
    obtain rfl := Option.some.inj (hd.symm.trans hd')
    exact .of_status (by rw [hwaits]; nofun) _
  cases e with
  | ask request =>
    exact (h.arrive request).exists_later_enter (exists_later_arrive hc request) _
  | arrive request => exact ⟨c, exists_later_arrive hc request, .refl c⟩
  | enter j => exact h.exists_later_enter hc j
  | deliver j =>
    rcases deliver_cases s j with he | ⟨d, n, g, r, hd, hwaits, -, -, he⟩ <;>
      rw [Session.step, he]
    · exact ⟨c, hc, .refl c⟩
    · exact hleave _ hd hwaits
  | cancel j =>
    rcases cancel_cases s j with he | ⟨d, n, hd, hwaits, he⟩ <;> rw [Session.step, he]
    · exact ⟨c, hc, .refl c⟩
    · exact hleave _ hd hwaits
  | _ => exact ⟨c, hc, .refl c⟩

/-! ### The step at which a generation is captured -/

theorem current_wait {shared shared' : Shared α} {target : Option Nat} {n : Nat}
    (htarget : ∀ m, target = some m → shared.current = some m)
    (hw : shared.wait target = .ok (n, shared')) : shared'.current = some n := by
  obtain ⟨-, ⟨ht, rfl⟩ | ⟨-, rfl, rfl⟩⟩ := Shared.wait_eq_ok hw
  · exact htarget n ht
  · rfl

/-- A call that captures a generation as it starts to wait captures the present one. -/
theorem current_of_captured_enter (j : Nat) {i n : Nat} {c' : Call α}
    (hc' : (s.enter j).calls[i]? = some c') (hn : c'.captured = some n) :
    (∃ c, s.calls[i]? = some c ∧ c.captured = some n) ∨
      (s.enter j).shared.current = some n := by
  rcases enter_cases s j with he | ⟨c, -, -, ⟨-, he⟩ | ⟨m, shared, hw, he⟩⟩ <;> rw [he] at hc' ⊢
  · exact .inl ⟨c', hc', hn⟩
  · exact .inl (exists_of_captured_setStatus hc' hn)
  · have hset :
        (s.setCall j fun c => { c with status := .waiting m, captured := some m }).calls[i]? =
          some c' := hc'
    rw [getElem?_setCall] at hset
    split at hset
    case isFalse => exact .inl ⟨c', hset, hn⟩
    case isTrue =>
      obtain ⟨c₀, -, rfl⟩ := Option.map_eq_some_iff.mp hset
      obtain rfl : m = n := Option.some.inj hn
      exact .inr (current_wait (fun m => current_of_target) hw)

/-- A call that was answered as it came in does not start to wait. -/
theorem enter_of_status_ne {i : Nat} (h : ∀ c, s.calls[i]? = some c → c.status ≠ .arrived) :
    s.enter i = s := by
  rcases enter_cases s i with he | ⟨c, hc, harrived, -⟩
  · exact he
  · exact absurd harrived (h c hc)

/-- A call that captures a generation by a step captures the one that is present after it. -/
theorem current_of_captured_step (e : Event α) {i n : Nat} {c' : Call α}
    (hc' : (s.step e).calls[i]? = some c') (hn : c'.captured = some n) :
    (∃ c, s.calls[i]? = some c ∧ c.captured = some n) ∨
      (s.step e).shared.current = some n := by
  cases e with
  | arrive request =>
    rw [step, shared_arrive]
    exact captured_arrive s request hc' hn
  | enter j => exact current_of_captured_enter j hc' hn
  | ask request =>
    rcases arrive_cases s request with ⟨m, g, r, -, -, -, -, he⟩ | he
    · -- answered at once, so that there is nothing to wait for
      have hdone : (s.arrive request).enter s.calls.length = s.arrive request := by
        refine enter_of_status_ne fun c hc => ?_
        rw [he, List.getElem?_concat_length] at hc
        rw [← Option.some.inj hc]
        rintro ⟨⟩
      rw [step, ask, hdone] at hc' ⊢
      rw [shared_arrive]
      exact captured_arrive s request hc' hn
    · refine (current_of_captured_enter s.calls.length hc' hn).imp_left ?_
      rintro ⟨c, hc, hcn⟩
      rw [he, List.getElem?_append] at hc
      split at hc
      case isTrue => exact ⟨c, hc, hcn⟩
      case isFalse =>
        rw [List.mem_singleton.mp (List.mem_of_getElem? hc)] at hcn
        cases hcn
  | deliver j =>
    rcases deliver_cases s j with he | ⟨c, m, g, r, -, -, -, -, he⟩ <;>
      rw [step, he] at hc'
    · exact .inl ⟨c', hc', hn⟩
    · exact .inl (exists_of_captured_setStatus hc' hn)
  | cancel j =>
    rcases cancel_cases s j with he | ⟨c, m, -, -, he⟩ <;>
      rw [step, he] at hc'
    · exact .inl ⟨c', hc', hn⟩
    · exact .inl (exists_of_captured_setStatus hc' hn)
  | _ => exact .inl ⟨c', hc', hn⟩

end Session

/-! ### Systems around a session -/

/-- A system holds a session that each of its steps takes a step further or leaves as it is. -/
def Drives {β ε : Type} (session : β → Session α) (step : β → ε → β) : Prop :=
  ∀ b e, session (step b e) = session b ∨ ∃ e', session (step b e) = (session b).step e'

namespace Drives

open Session

variable {β ε : Type} {session : β → Session α} {step : β → ε → β} {b : β}

theorem served_step (hd : Drives session step) (h : (session b).Served) (e : ε) :
    (session (step b e)).Served := by
  rcases hd b e with hs | ⟨e', hs⟩ <;> rw [hs]
  · exact h
  · exact h.step e'

theorem served_run (hd : Drives session step) (h : (session b).Served) (events : List ε) :
    (session (events.foldl step b)).Served := by
  induction events generalizing b with
  | nil => exact h
  | cons e events ih => exact ih (hd.served_step h e)

theorem exists_later_step (hd : Drives session step) (h : (session b).Served) {i : Nat}
    {c : Call α} (hc : (session b).calls[i]? = some c) (e : ε) :
    ∃ c', (session (step b e)).calls[i]? = some c' ∧ c.Later c' := by
  rcases hd b e with hs | ⟨e', hs⟩ <;> rw [hs]
  · exact ⟨c, hc, .refl c⟩
  · exact h.exists_later_step hc e'

theorem grows_run (hd : Drives session step) (h : (session b).Served) (events : List ε) :
    (session b).shared.Grows (session (events.foldl step b)).shared := by
  induction events generalizing b with
  | nil => exact Shared.Grows.refl _
  | cons e events ih =>
    refine Shared.Grows.trans ?_ (ih (hd.served_step h e))
    rcases hd b e with hs | ⟨e', hs⟩ <;> rw [hs]
    · exact Shared.Grows.refl _
    · exact grows_step h.attended.sound.numbered e'

/-- **A call captures the generation that is present at that step.** If a call has captured a
generation after some steps, and had not before them, then one of them is the step at which it
captured it: before it the call had captured nothing, and after it that generation is the present
one. -/
theorem exists_capture (hd : Drives session step) (h : (session b).Served) (events : List ε)
    {i n : Nat} {c' : Call α} (hc' : (session (events.foldl step b)).calls[i]? = some c')
    (hn : c'.captured = some n) :
    (∃ c, (session b).calls[i]? = some c ∧ c.captured = some n) ∨
      ∃ earlier e later, events = earlier ++ e :: later ∧
        (∀ c, (session (earlier.foldl step b)).calls[i]? = some c → c.captured = none) ∧
        (session ((earlier ++ [e]).foldl step b)).shared.current = some n := by
  induction events generalizing b with
  | nil => exact .inl ⟨c', hc', hn⟩
  | cons e events ih =>
    by_cases hcap : ∃ c, (session b).calls[i]? = some c ∧ c.captured = some n
    · exact .inl hcap
    right
    rcases ih (hd.served_step h e) hc' with
      ⟨c, hc, hcn⟩ | ⟨earlier, e', later, rfl, hbefore, hafter⟩
    · refine ⟨[], e, events, rfl, fun c₀ hc₀ => ?_, ?_⟩
      · by_contra hne
        obtain ⟨m, hm⟩ := Option.ne_none_iff_exists'.mp hne
        obtain ⟨c₁, hc₁, hlater⟩ := hd.exists_later_step h hc₀ e
        obtain rfl := Option.some.inj (hc.symm.trans hc₁)
        obtain rfl : n = m := Option.some.inj (hcn.symm.trans (hlater.captured m hm))
        exact hcap ⟨c₀, hc₀, hm⟩
      · show (session (step b e)).shared.current = some n
        rcases hd b e with hs | ⟨e', hs⟩ <;> rw [hs] at hc ⊢
        · exact absurd ⟨c, hc, hcn⟩ hcap
        · exact (current_of_captured_step e' hc hcn).resolve_left hcap
    · exact ⟨e :: earlier, e', later, rfl, hbefore, hafter⟩

/-- The present generation is no older than one that has an outcome and was not aborted. -/
theorem le_current (hd : Drives session step) (h : (session b).Served) {g : Generation α}
    (hg : g ∈ (session b).shared.generations) (hab : g.aborted = false) (hr : g.outcome? ≠ none)
    (events : List ε) {n : Nat}
    (hn : (session (events.foldl step b)).shared.current = some n) : g.number ≤ n := by
  have hsound := (hd.served_run h events).attended.sound
  obtain ⟨g', hg', hlater⟩ := (hd.grows_run h events).exists_later hg
  obtain ⟨-, -, -, -, hmax⟩ :=
    (Shared.newest?_eq_some_iff hsound.numbered n).mp (hsound.current.symm.trans hn)
  rw [← hlater.number]
  exact hmax g' hg' (hlater.aborted_eq_false hr hab)

/-- **What is captured later is no older.** A generation whose outcome a call was told is not newer
than one that another call captures afterwards. -/
theorem le_captured (hd : Drives session step) (h : (session b).Served) {j k : Nat} {d : Call α}
    {r : Except Failure α} (hcall : (session b).calls[j]? = some d) (hr : d.status = .done r)
    (hk : d.captured = some k) (events : List ε) {i n : Nat} {c : Call α}
    (hbefore : ∀ c, (session b).calls[i]? = some c → c.captured = none)
    (hc : (session (events.foldl step b)).calls[i]? = some c) (hn : c.captured = some n) :
    k ≤ n := by
  obtain ⟨g, hg, rfl, hab, hout⟩ := h.exists_of_done (List.mem_of_getElem? hcall) hr hk
  rcases hd.exists_capture h events hc hn with ⟨c₀, hc₀, hcn₀⟩ | ⟨earlier, e, later, -, -, hcurrent⟩
  · rw [hbefore c₀ hc₀] at hcn₀
    cases hcn₀
  · exact hd.le_current h hg hab (by rw [hout]; exact Option.some_ne_none r) _ hcurrent

end Drives

end Concordance.Sharing
