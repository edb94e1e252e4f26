import Concordance.Proofs.Sharing.Reversion

/-!
# Who waits for a generation

A generation counts those who wait for it, and the count decides whether its load is aborted. This
file proves that the count is the number of calls that wait, that no load is left to itself, and
that nobody comes to an aborted generation any more.

The three belong together. A call leaves by one step that both lowers the count and looks at it, so
the count can only be right if every call that waits is counted once; and a generation that is
aborted at count zero stays at zero only because calls are sent to the present generation or to a
new one, of which neither is aborted.

## Main results

* `Session.Attended`: the invariant
* `Session.attended_run`: it holds after any events
* `Session.captured_run`: nobody captures an aborted generation later on
* `Session.waiters_accounted`: all of it, for every generation of every run
-/

namespace Concordance.Sharing

variable {α : Type}

/-- Whether a call waits for a generation. -/
def Call.waitsFor (c : Call α) (n : Nat) : Bool :=
  match c.status with
  | .waiting m => m = n
  | _ => false

namespace Session

/-- The number of calls that wait for a generation. -/
def waiting (s : Session α) (n : Nat) : Nat := s.calls.countP fun c => c.waitsFor n

/-! ### Counting -/

theorem countP_modify {β : Type} (p : β → Bool) (f : β → β) {l : List β} {i : Nat} {b : β}
    (hb : l[i]? = some b) :
    (l.modify i f).countP p + (if p b then 1 else 0) =
      l.countP p + (if p (f b) then 1 else 0) := by
  induction l generalizing i with
  | nil => simp at hb
  | cons a rest ih =>
    cases i with
    | zero =>
      obtain rfl : a = b := by simpa using hb
      simp only [List.modify_zero_cons, List.countP_cons]
      omega
    | succ i =>
      have hrest := ih (i := i) (by simpa using hb)
      simp only [List.modify_succ_cons, List.countP_cons]
      omega

theorem waiting_setCall {s : Session α} {i : Nat} {c : Call α} (hc : s.calls[i]? = some c)
    (f : Call α → Call α) (n : Nat) :
    (s.setCall i f).waiting n + (if c.waitsFor n then 1 else 0) =
      s.waiting n + (if (f c).waitsFor n then 1 else 0) :=
  countP_modify _ f hc

theorem waiting_concat (s : Session α) {c : Call α} {n : Nat} (hc : c.waitsFor n = false) :
    ({ s with calls := s.calls ++ [c] } : Session α).waiting n = s.waiting n := by
  simp [waiting, hc]

theorem waitsFor_of_status {c : Call α} {m : Nat} (h : c.status = .waiting m) (n : Nat) :
    c.waitsFor n = decide (m = n) := by
  simp [Call.waitsFor, h]

theorem waiting_eq_zero {s : Session α} {n : Nat}
    (h : ∀ c ∈ s.calls, c.status ≠ .waiting n) : s.waiting n = 0 := by
  refine List.countP_eq_zero.mpr fun c hc hw => h c hc ?_
  rw [Call.waitsFor] at hw
  split at hw
  case h_1 m hm => rw [hm, of_decide_eq_true hw]
  case h_2 => cases hw

/-! ### The invariant -/

/-- Every generation is attended to by those who are counted as waiting for it, until it has an
outcome or is aborted. -/
structure Attended (s : Session α) : Prop where
  sound : s.shared.Sound
  waiters : ∀ g ∈ s.shared.generations, g.waiters = s.waiting g.number
  watched : ∀ g ∈ s.shared.generations, g.outcome? = none → g.aborted = false → 0 < g.waiters
  abandoned : ∀ g ∈ s.shared.generations, g.aborted = true →
    g.waiters = 0 ∧ g.token.cancelled = true
  started : ∀ c ∈ s.calls, ∀ n, c.status = .waiting n → n ≤ s.shared.generations.length

theorem Attended.concat {s : Session α} (h : s.Attended) {c : Call α}
    (hc : ∀ n, c.status ≠ .waiting n) :
    Attended { s with calls := s.calls ++ [c] } where
  sound := h.sound
  waiters g hg := by
    rw [waiting_concat s]
    · exact h.waiters g hg
    · rw [Call.waitsFor]
      split
      case h_1 m hm => exact absurd hm (hc m)
      case h_2 => rfl
  watched := h.watched
  abandoned := h.abandoned
  started c' hc' n hn := by
    rcases List.mem_append.mp hc' with hc' | hc'
    · exact h.started c' hc' n hn
    · obtain rfl := List.mem_singleton.mp hc'
      exact absurd hn (hc n)

theorem Attended.arrive {s : Session α} (h : s.Attended) (request : Request) :
    (s.arrive request).Attended := by
  rcases arrive_cases s request with ⟨n, g, r, -, -, -, -, he⟩ | he <;> rw [he]
  · exact h.concat fun _ hn => by cases hn
  · exact h.concat fun _ hn => by cases hn

theorem Attended.advances {s : Session α} (h : s.Attended) {shared : Shared α}
    (ha : s.shared.Advances shared) : Attended { s with shared } where
  sound := h.sound.advances ha
  waiters g' hg' := by
    obtain ⟨g, hg, hp⟩ := Shared.exists_earlier ha.generations hg'
    rw [hp.waiters, hp.number]
    exact h.waiters g hg
  watched g' hg' hr hab := by
    obtain ⟨g, hg, hp⟩ := Shared.exists_earlier ha.generations hg'
    rw [hp.aborted_eq] at hab
    rw [hp.waiters]
    refine h.watched g hg ?_ hab
    rcases (hp.link (.inr hr)).2 with hab' | hr'
    · simp [hab] at hab'
    · exact hr'
  abandoned g' hg' hab := by
    obtain ⟨g, hg, hp⟩ := Shared.exists_earlier ha.generations hg'
    rw [hp.aborted_eq] at hab
    obtain ⟨hw, ht⟩ := h.abandoned g hg hab
    exact ⟨hp.waiters.trans hw, hp.cancelled ht⟩
  started c hc n hn := by
    rw [← ha.generations.length_eq]
    exact h.started c hc n hn

/-- A call that starts to wait is counted by its generation, and all others stay as they are. -/
theorem Attended.join {s : Session α} (h : s.Attended) {i : Nat} {c : Call α}
    (hc : s.calls[i]? = some c) (harrived : c.status = .arrived) {n : Nat} {shared : Shared α}
    (hsound : shared.Sound) (hn : n ≤ shared.generations.length)
    (hlen : s.shared.generations.length ≤ shared.generations.length)
    (hgens : ∀ g' ∈ shared.generations, g' ∈ s.shared.generations ∧ g'.number ≠ n ∨
      g'.number = n ∧ g'.waiters = s.waiting n + 1 ∧ g'.aborted = false) :
    Attended { s.setCall i (fun c => { c with status := .waiting n, captured := some n }) with
      shared } := by
  have hcount : ∀ m,
      (s.setCall i fun c => { c with status := .waiting n, captured := some n }).waiting m =
        s.waiting m + if n = m then 1 else 0 := by
    intro m
    have hset := waiting_setCall hc (fun c => { c with status := .waiting n, captured := some n }) m
    simpa [Call.waitsFor, harrived] using hset
  refine ⟨hsound, fun g' hg' => ?_, fun g' hg' hr hab => ?_, fun g' hg' hab => ?_, ?_⟩
  · refine Eq.trans ?_ (hcount g'.number).symm
    rcases hgens g' hg' with ⟨hg, hne⟩ | ⟨rfl, hw, -⟩
    · rw [if_neg hne.symm]
      exact h.waiters g' hg
    · rw [if_pos rfl]
      exact hw
  · rcases hgens g' hg' with ⟨hg, -⟩ | ⟨-, hw, -⟩
    · exact h.watched g' hg hr hab
    · omega
  · rcases hgens g' hg' with ⟨hg, -⟩ | ⟨-, -, hna⟩
    · exact h.abandoned g' hg hab
    · rw [hna] at hab
      cases hab
  · intro c' hc' m hm
    rcases mem_setCall hc' with hc' | ⟨c₀, -, rfl⟩
    · exact Nat.le_trans (h.started c' hc' m hm) hlen
    · obtain rfl : n = m := by simpa using hm
      exact hn

/-- A call that does not wait before or after changes no count. -/
theorem Attended.setStatus {s : Session α} (h : s.Attended) {i : Nat} {c : Call α}
    (hc : s.calls[i]? = some c) (harrived : c.status = .arrived) (r : Except Failure α) :
    (s.setStatus i (.done r)).Attended where
  sound := h.sound
  waiters g hg := by
    have hset : (s.setStatus i (.done r)).waiting g.number + _ = _ :=
      waiting_setCall hc (fun c => { c with status := .done r }) g.number
    simp only [Call.waitsFor, harrived, Bool.false_eq_true, if_false, Nat.add_zero] at hset
    rw [hset]
    exact h.waiters g hg
  watched := h.watched
  abandoned := h.abandoned
  started c' hc' m hm := by
    rcases mem_setCall hc' with hc' | ⟨c₀, -, rfl⟩
    · exact h.started c' hc' m hm
    · cases hm

/-- Nobody waits for a generation that is yet to be started. -/
theorem Attended.waiting_eq_zero {s : Session α} (h : s.Attended) :
    s.waiting (s.shared.generations.length + 1) = 0 :=
  Session.waiting_eq_zero fun c hc hw => absurd (h.started c hc _ hw) (Nat.not_succ_le_self _)

theorem Attended.enter {s : Session α} (h : s.Attended) (i : Nat) : (s.enter i).Attended := by
  rcases enter_cases s i with he | ⟨c, hc, harrived, ⟨-, he⟩ | ⟨n, shared, hw, he⟩⟩ <;> rw [he]
  · exact h
  · exact h.setStatus hc harrived _
  have hsound := h.sound.wait hw
  obtain ⟨-, ⟨htarget, rfl⟩ | ⟨-, rfl, rfl⟩⟩ := Shared.wait_eq_ok hw
  · obtain ⟨g₀, hg₀, hn, hab⟩ := h.sound.exists_of_current (current_of_target htarget)
    refine h.join hc harrived hsound ?_ ?_ fun g' hg' => ?_
    · rw [← hn]
      exact Nat.le_trans (h.sound.numbered.le_length hg₀) (Nat.le_of_eq (List.length_map _).symm)
    · exact Nat.le_of_eq (List.length_map _).symm
    · obtain ⟨g, hg, rfl⟩ := Shared.mem_modify.mp hg'
      by_cases hgn : g.number = n
      · obtain rfl := h.sound.eq_of_number hg₀ hg (hgn.trans hn.symm)
        rw [if_pos hgn]
        exact .inr ⟨hgn, congrArg (· + 1) (by rw [h.waiters g hg, hgn]), hab⟩
      · rw [if_neg hgn]
        exact .inl ⟨hg, hgn⟩
  · refine h.join hc harrived hsound ?_ ?_ fun g' hg' => ?_
    · simp [Shared.attach, Shared.modify, Shared.start]
    · simp [Shared.attach, Shared.modify, Shared.start]
    · obtain ⟨g, hg, rfl⟩ := Shared.mem_modify.mp hg'
      rcases List.mem_cons.mp hg with rfl | hg
      · rw [if_pos rfl]
        exact .inr ⟨rfl, by rw [h.waiting_eq_zero]; rfl, rfl⟩
      · have hgn : g.number ≠ s.shared.generations.length + 1 := fun hgn => by
          have hle := h.sound.numbered.le_length hg
          omega
        rw [if_neg hgn]
        exact .inl ⟨hg, hgn⟩

/-- A call that leaves does not wait any more. -/
theorem waiting_of_leave {s : Session α} {i : Nat} {c : Call α} (hc : s.calls[i]? = some c)
    {n : Nat} (hwaits : c.status = .waiting n) {status : Status α}
    (hstatus : ∀ m, status ≠ .waiting m) (m : Nat) :
    (s.setStatus i status).waiting m = s.waiting m - if n = m then 1 else 0 := by
  have hset : (s.setStatus i status).waiting m + _ = _ :=
    waiting_setCall hc (fun c => { c with status }) m
  have hnot : ({ c with status } : Call α).waitsFor m = false := by
    rw [Call.waitsFor]
    split
    case h_1 k hk => exact absurd hk (hstatus k)
    case h_2 => rfl
  rw [hnot, waitsFor_of_status hwaits] at hset
  simp only [decide_eq_true_eq, Bool.false_eq_true, if_false] at hset
  omega

/-- A call that leaves is taken off the count of its generation. If it takes no outcome with it, the
generation is watched by others or aborted. -/
theorem Attended.leave {s : Session α} (h : s.Attended) {i : Nat} {c : Call α}
    (hc : s.calls[i]? = some c) {n : Nat} (hwaits : c.status = .waiting n) {status : Status α}
    (hstatus : ∀ m, status ≠ .waiting m) {cancelled : Bool}
    (hcancelled : cancelled = false → ∀ g ∈ s.shared.generations, g.number = n →
      g.outcome? ≠ none) :
    Attended { s.setStatus i status with shared := s.shared.release n cancelled } := by
  have hmem : ∀ g' ∈ (s.shared.release n cancelled).generations, ∃ g ∈ s.shared.generations,
      (if g.number = n then g.left cancelled else g) = g' := by
    intro g' hg'
    rw [Shared.generations_release h.sound.numbered] at hg'
    exact Shared.mem_modify.mp hg'
  refine ⟨h.sound.release n cancelled, fun g' hg' => ?_, fun g' hg' hr hab => ?_,
    fun g' hg' hab => ?_, fun c' hc' m hm => ?_⟩
  · obtain ⟨g, hg, rfl⟩ := hmem g' hg'
    refine Eq.trans ?_ (waiting_of_leave hc hwaits hstatus _).symm
    by_cases hgn : g.number = n
    · rw [if_pos hgn, Generation.waiters_left, (g.later_left cancelled).number, if_pos hgn.symm,
        h.waiters g hg]
    · rw [if_neg hgn, if_neg (Ne.symm hgn), h.waiters g hg, Nat.sub_zero]
  · obtain ⟨g, hg, rfl⟩ := hmem g' hg'
    by_cases hgn : g.number = n
    · rw [if_pos hgn] at hr hab ⊢
      rw [Generation.outcome?_left] at hr
      cases cancelled with
      | false => exact absurd hr (hcancelled rfl g hg hgn)
      | true => exact Generation.waiters_left_pos hr hab
    · rw [if_neg hgn] at hr hab ⊢
      exact h.watched g hg hr hab
  · obtain ⟨g, hg, rfl⟩ := hmem g' hg'
    by_cases hgn : g.number = n
    · rw [if_pos hgn] at hab ⊢
      rcases Generation.aborted_left hab with hab | hleft
      · obtain ⟨hw, ht⟩ := h.abandoned g hg hab
        exact ⟨by rw [Generation.waiters_left, hw], (g.later_left cancelled).cancelled ht⟩
      · exact hleft
    · rw [if_neg hgn] at hab ⊢
      exact h.abandoned g hg hab
  · have hlen : (s.shared.release n cancelled).generations.length = s.shared.generations.length :=
      length_generations_release h.sound n cancelled
    rw [hlen]
    rcases mem_setCall hc' with hc' | ⟨c₀, -, rfl⟩
    · exact h.started c' hc' m hm
    · exact absurd hm (hstatus m)

theorem Attended.deliver {s : Session α} (h : s.Attended) (i : Nat) : (s.deliver i).Attended := by
  rcases deliver_cases s i with he | ⟨c, n, g, r, hc, hwaits, hg, hr, he⟩ <;> rw [he]
  · exact h
  · refine h.leave hc hwaits (fun m hm => by cases hm) fun _ g' hg' hn => ?_
    rw [h.sound.numbered.eq_of_find? hg hg' hn, hr]
    exact Option.some_ne_none r

theorem Attended.cancel {s : Session α} (h : s.Attended) (i : Nat) : (s.cancel i).Attended := by
  rcases cancel_cases s i with he | ⟨c, n, hc, hwaits, he⟩ <;> rw [he]
  · exact h
  · exact h.leave hc hwaits (fun m hm => by cases hm) fun hf => by cases hf

theorem Attended.step {s : Session α} (h : s.Attended) (e : Event α) : (s.step e).Attended := by
  cases e with
  | ask request => exact (h.arrive request).enter _
  | arrive request => exact h.arrive request
  | enter i => exact h.enter i
  | begin => exact h.advances (Shared.advances_begin _)
  | launch n => exact h.advances (Shared.advances_launch _ n)
  | finish n result => exact h.advances (Shared.advances_finish _ n result)
  | timeOut n => exact h.advances (Shared.advances_timeOut _ n)
  | expire n => exact h.advances (Shared.advances_expire _ n)
  | giveUp n => exact h.advances (Shared.advances_giveUp _ n)
  | deliver i => exact h.deliver i
  | cancel i => exact h.cancel i
  | close => exact h.advances (Shared.advances_close _)
  | shut => exact h.advances (Shared.advances_shut _)
  | revoke => exact h.advances (Shared.advances_revoke _)

theorem attended_run (root : String) (limit : Option String) (events : List (Event α)) :
    ((fresh root limit).run events).Attended := by
  have hgens := not_mem_generations_fresh (α := α) root limit
  have hfresh : (fresh root limit : Session α).Attended :=
    ⟨sound_run root limit [], fun g hg => absurd hg (hgens g), fun g hg => absurd hg (hgens g),
      fun g hg => absurd hg (hgens g), fun c hc => absurd hc (not_mem_calls_fresh root limit c)⟩
  exact run_induction (fun _ e h => h.step e) hfresh events

/-! ### Nobody comes late -/

theorem captured_arrive (s : Session α) (request : Request) {i n : Nat} {c' : Call α}
    (hc' : (s.arrive request).calls[i]? = some c') (hn : c'.captured = some n) :
    (∃ c, s.calls[i]? = some c ∧ c.captured = some n) ∨ s.shared.current = some n := by
  have hconcat : ∀ c : Call α, (s.calls ++ [c])[i]? = some c' →
      s.calls[i]? = some c' ∨ c' = c := by
    intro c hc
    rw [List.getElem?_append] at hc
    split at hc
    · exact .inl hc
    · exact .inr (List.mem_singleton.mp (List.mem_of_getElem? hc))
  rcases arrive_cases s request with ⟨m, g, r, -, hm, -, -, he⟩ | he <;> rw [he] at hc' <;>
    rcases hconcat _ hc' with hold | rfl
  · exact .inl ⟨c', hold, hn⟩
  · exact .inr (hm.trans hn)
  · exact .inl ⟨c', hold, hn⟩
  · cases hn

theorem captured_enter (s : Session α) (j : Nat) {i n : Nat} {c' : Call α}
    (hc' : (s.enter j).calls[i]? = some c') (hn : c'.captured = some n) :
    (∃ c, s.calls[i]? = some c ∧ c.captured = some n) ∨
      s.shared.current = some n ∨ n = s.shared.generations.length + 1 := by
  rcases enter_cases s j with he | ⟨c, hc, -, ⟨-, he⟩ | ⟨m, shared, hw, he⟩⟩ <;> rw [he] at hc'
  · exact .inl ⟨c', hc', hn⟩
  · exact .inl (exists_of_captured_setStatus hc' hn)
  · have hset :
        (s.setCall j fun c => { c with status := .waiting m, captured := some m }).calls[i]? =
          some c' := hc'
    rw [getElem?_setCall] at hset
    split at hset
    case isFalse => exact .inl ⟨c', hset, hn⟩
    case isTrue =>
      obtain ⟨c₀, -, rfl⟩ := Option.map_eq_some_iff.mp hset
      obtain rfl : m = n := Option.some.inj hn
      obtain ⟨-, ⟨htarget, -⟩ | ⟨-, hnew, -⟩⟩ := Shared.wait_eq_ok hw
      · exact .inr (.inl (current_of_target htarget))
      · exact .inr (.inr hnew)

/-- A call that captures a generation by a step captures the present one or a new one. -/
theorem captured_step (s : Session α) (e : Event α) {i n : Nat} {c' : Call α}
    (hc' : (s.step e).calls[i]? = some c') (hn : c'.captured = some n) :
    (∃ c, s.calls[i]? = some c ∧ c.captured = some n) ∨
      s.shared.current = some n ∨ n = s.shared.generations.length + 1 := by
  cases e with
  | ask request =>
    rcases captured_enter (s.arrive request) _ hc' hn with ⟨c, hc, hcn⟩ | h
    · rcases captured_arrive s request hc hcn with h | h
      · exact .inl h
      · exact .inr (.inl h)
    · rw [shared_arrive] at h
      exact .inr h
  | arrive request =>
    rcases captured_arrive s request hc' hn with h | h
    · exact .inl h
    · exact .inr (.inl h)
  | enter j => exact captured_enter s j hc' hn
  | deliver j =>
    rcases deliver_cases s j with he | ⟨c, m, g, r, -, -, -, -, he⟩ <;>
      rw [step, he] at hc'
    · exact .inl ⟨c', hc', hn⟩
    · exact .inl (exists_of_captured_setStatus hc' hn)
  | cancel j =>
    rcases cancel_cases s j with he | ⟨c, m, -, -, he⟩ <;>
      rw [step, he] at hc'
    · exact .inl ⟨c', hc', hn⟩
    · exact .inl (exists_of_captured_setStatus hc' hn)
  | _ => exact .inl ⟨c', hc', hn⟩

/-- **Nobody captures an aborted generation later on.** -/
theorem captured_run {s : Session α} (h : s.Attended) {g : Generation α}
    (hg : g ∈ s.shared.generations) (hab : g.aborted = true) (later : List (Event α)) {i : Nat}
    {c' : Call α} (hc' : (s.run later).calls[i]? = some c') (hn : c'.captured = some g.number) :
    ∃ c, s.calls[i]? = some c ∧ c.captured = some g.number := by
  induction later generalizing s g with
  | nil => exact ⟨c', hc', hn⟩
  | cons e later ih =>
    obtain ⟨g', hg', hlater⟩ := (grows_step h.sound.numbered e).exists_later hg
    rw [← hlater.number] at hn
    obtain ⟨c, hc, hcn⟩ := ih (h.step e) hg' (hlater.aborted hab) hc' hn
    rw [hlater.number] at hcn
    rcases captured_step s e hc hcn with hold | hcurrent | hnew
    · exact hold
    · obtain ⟨g₀, hg₀, hn₀, hab₀⟩ := h.sound.exists_of_current hcurrent
      rw [h.sound.eq_of_number hg hg₀ hn₀, hab] at hab₀
      cases hab₀
    · have hle := h.sound.numbered.le_length hg
      omega

/-- **Everybody who waits is accounted for.** After any events, for every generation:

* its count is the number of calls that wait for it;
* as long as its load has no outcome and was not aborted, somebody waits for it;
* if it was aborted, nobody waits for it, its load was called off, it is not the present one, and
  whatever happens later, no call captures it that had not captured it before. -/
theorem waiters_accounted (root : String) (limit : Option String) (events : List (Event α)) :
    let s := (fresh root limit).run events
    ∀ g ∈ s.shared.generations,
      g.waiters = s.waiting g.number ∧
      (g.outcome? = none → g.aborted = false → 0 < g.waiters) ∧
      (g.aborted = true → g.waiters = 0 ∧ g.token.cancelled = true ∧
        s.shared.current ≠ some g.number ∧
        ∀ (later : List (Event α)) (i : Nat) (c' : Call α),
          (s.run later).calls[i]? = some c' → c'.captured = some g.number →
            ∃ c, s.calls[i]? = some c ∧ c.captured = some g.number) := by
  intro s g hg
  have h : s.Attended := attended_run root limit events
  refine ⟨h.waiters g hg, h.watched g hg, fun hab => ?_⟩
  obtain ⟨hw, ht⟩ := h.abandoned g hg hab
  refine ⟨hw, ht, fun hcurrent => ?_, fun later i c' hc' hn => captured_run h hg hab later hc' hn⟩
  obtain ⟨g₀, hg₀, hn₀, hab₀⟩ := h.sound.exists_of_current hcurrent
  rw [h.sound.eq_of_number hg hg₀ hn₀, hab] at hab₀
  cases hab₀

end Session

end Concordance.Sharing
