import Concordance.Proofs.Service.Tasks

/-!
# Every answer comes from one generation

Requests go on in any order while loads end, callers go away and the graph is loaded again. A
request that is answered has captured one generation, the one that was present then, and all of its
answer comes from the graph of that generation: its projects, or the symbols that are meant and the
places where they are referred to. That generation is no older than any whose outcome somebody had
been told before the request came in.

The first part is an invariant of single tasks, `Task.Kept`: what a task holds between two steps is
a part of the answer from the graph that it took. The second part is about calls, and is proved for
whatever drives a session in `Concordance.Proofs.Sharing.Freshness`.

Of the engine nothing is assumed. What its searches find may change from one search to the next, so
that the places in an answer are those that were found when each symbol was searched, in that graph.
For the engine that works on a file tree they are the references that were loaded with it.

## Main definitions

* `Job.Answers`: the values that answer a job from a graph
* `Searched`: a part of the symbols was searched
* `Task.Kept`, `Traffic.Kept`: the invariant

## Main results

* `Traffic.kept_run`: the invariant along every run
* `Traffic.answered_from_one_generation`: what it says about a request that is answered
* `Job.Answers.eq_located`: on a file tree the graph and the job determine the answer
-/

namespace Concordance.Service

open Sharing Query

variable {σ : Type} {engine : Engine σ}

/-! ### Answers from a graph -/

/-- A value answers a job from a graph: it holds the projects of the graph, or a row for each place
where one of the symbols that its declarations hold is referred to, as a search in the graph found
it. -/
def Job.Answers (engine : Engine σ) (g : Graph) (v : Json.Value) : Job → Prop
  | .projects => v = .array (g.projects.map projectValue)
  | .refresh => v = .object [("Ok", .bool true)]
  | .references filter kind =>
    ∃ find : String → List Location,
      (∀ s ∈ symbolsNamed g filter kind, ∃ m e,
        ((engine.search g s).runFrom m e).1 = .ok (find s.id)) ∧
      v = rowsValue kind (reference find g filter kind)

/-! ### Searching symbols one after the other -/

/-- A part of the symbols that a query names was searched, with what was found. -/
def Searched (engine : Engine σ) (g : Graph) (f : Filter) (kind : Option MemberKind)
    (left : List Symbol) (found : List RowKey × List Row) : Prop :=
  ∃ answers : List (Symbol × List Location),
    symbolsNamed g f kind = answers.map Prod.fst ++ left ∧
    (∀ a ∈ answers, ∃ m e, ((engine.search g a.1).runFrom m e).1 = .ok a.2) ∧
    found = answers.foldl (fun found a => collectRows a.1 a.2 found) ([], [])

section

variable {g : Graph} {f : Filter} {kind : Option MemberKind}

theorem searched_nil : Searched engine g f kind (symbolsNamed g f kind) ([], []) :=
  ⟨[], rfl, nofun, rfl⟩

/-- One more symbol is searched. -/
theorem Searched.concat {s : Symbol} {left : List Symbol} {found : List RowKey × List Row}
    (h : Searched engine g f kind (s :: left) found) {m : Meter} {e : σ}
    {locations : List Location} (hs : ((engine.search g s).runFrom m e).1 = .ok locations) :
    Searched engine g f kind left (collectRows s locations found) := by
  obtain ⟨answers, hsymbols, hanswers, rfl⟩ := h
  refine ⟨answers ++ [(s, locations)], ?_, fun a ha => ?_, ?_⟩
  · rw [hsymbols, List.map_append, List.append_assoc]
    rfl
  · rcases List.mem_append.mp ha with ha | ha
    · exact hanswers a ha
    · rw [List.mem_singleton.mp ha]
      exact ⟨m, e, hs⟩
  · rw [List.foldl_append]
    rfl

/-- What was found for an id. -/
def foundFor (answers : List (Symbol × List Location)) (id : String) : List Location :=
  (answers.find? fun a => a.1.id = id).elim [] Prod.snd

theorem foundFor_eq {answers : List (Symbol × List Location)}
    (hids : (answers.map fun a => a.1.id).Nodup) {a : Symbol × List Location} (ha : a ∈ answers) :
    foundFor answers a.1.id = a.2 := by
  rw [foundFor]
  cases hb : answers.find? fun b => b.1.id = a.1.id with
  | none =>
    have hne := List.find?_eq_none.mp hb a ha
    simp at hne
  | some b =>
    have hid : b.1.id = a.1.id := by simpa using List.find?_some hb
    rw [List.inj_on_of_nodup_map hids (List.mem_of_find?_eq_some hb) ha hid]
    rfl

/-- Once all symbols were searched, the rows are those of the reference. -/
theorem Searched.answers {found : List RowKey × List Row}
    (h : Searched engine g f kind [] found) :
    (Job.references f kind).Answers engine g (rowsValue kind (Row.sort found.2)) := by
  obtain ⟨answers, hsymbols, hanswers, rfl⟩ := h
  rw [List.append_nil] at hsymbols
  have hids : (answers.map fun a => a.1.id).Nodup := by
    have hnodup := nodup_symbolsNamed g f kind
    rwa [hsymbols, List.map_map] at hnodup
  have hfind : ∀ a ∈ answers, foundFor answers a.1.id = a.2 := fun a ha => foundFor_eq hids ha
  refine ⟨foundFor answers, fun s hs => ?_, congrArg (rowsValue kind) ?_⟩
  · rw [hsymbols] at hs
    obtain ⟨a, ha, rfl⟩ := List.mem_map.mp hs
    rw [hfind a ha]
    exact hanswers a ha
  · have hperm := foldl_collectRows_perm hfind [] []
    rw [freshOf_nil, List.append_nil, ← hsymbols] at hperm
    rw [reference, Row.sort_eq]
    exact Row.insertionSort_eq_of_perm hperm

end

/-! ### What a task holds -/

/-- A request was told this when it asked for the graph. -/
def Task.Told (session : Session Graph) (t : Task) (r : Except Failure Graph) : Prop :=
  ∃ c call, t.call = some c ∧ session.calls[c]? = some call ∧ call.status = .done r

/-- What a request holds at its stage belongs to an answer from the graph that it was told. -/
structure Task.Kept (engine : Engine σ) (session : Session Graph) (t : Task) : Prop where
  asking : ∀ job, t.stage = .asking job → t.request.job = .ok job
  resolving : ∀ g f kind, t.stage = .resolving g f kind →
    t.Told session (.ok g) ∧ t.request.job = .ok (.references f kind)
  searching : ∀ g kind left m found, t.stage = .searching g kind left m found →
    t.Told session (.ok g) ∧ ∃ f, t.request.job = .ok (.references f kind) ∧
      Searched engine g f kind left found
  ended : ∀ r, t.stage = .ended r → t.call.isSome → ∃ told, t.Told session told
  answered : ∀ v, t.stage = .ended (.ok v) →
    ∃ g job, t.Told session (.ok g) ∧ t.request.job = .ok job ∧ job.Answers engine g v

namespace Task

variable {session session' : Session Graph} {t : Task}

theorem Told.later {r : Except Failure Graph} (h : t.Told session r)
    (hcalls : ∀ (i : Nat) (c : Call Graph), session.calls[i]? = some c →
      ∃ c', session'.calls[i]? = some c' ∧ c.Later c') : t.Told session' r := by
  obtain ⟨c, call, hc, hcall, hr⟩ := h
  obtain ⟨call', hcall', hlater⟩ := hcalls c call hcall
  exact ⟨c, call', hc, hcall', hlater.done r hr⟩

/-- What a request holds stays true of it while calls go on. -/
theorem Kept.later (h : t.Kept engine session)
    (hcalls : ∀ (i : Nat) (c : Call Graph), session.calls[i]? = some c →
      ∃ c', session'.calls[i]? = some c' ∧ c.Later c') : t.Kept engine session' where
  asking := h.asking
  resolving g f kind hstage := (h.resolving g f kind hstage).imp_left (·.later hcalls)
  searching g kind left m found hstage :=
    (h.searching g kind left m found hstage).imp_left (·.later hcalls)
  ended r hstage hcall := (h.ended r hstage hcall).imp fun _ => (·.later hcalls)
  answered v hstage := by
    obtain ⟨g, job, htold, hanswers⟩ := h.answered v hstage
    exact ⟨g, job, htold.later hcalls, hanswers⟩

/-- A request that has been told something, and has ended with a failure. -/
theorem kept_of_failure {told : Except Failure Graph} (htold : t.Told session told)
    (failure : Failure) :
    ({ t with stage := .ended (.error failure) } : Task).Kept engine session where
  asking := nofun
  resolving := nofun
  searching := nofun
  ended _ _ _ := ⟨told, htold⟩
  answered := nofun

/-- A request that has ended with an answer from the graph that it was told. -/
theorem kept_of_answers {g : Graph} {job : Job} (htold : t.Told session (.ok g))
    (hjob : t.request.job = .ok job) {v : Json.Value} (hv : job.Answers engine g v) :
    ({ t with stage := .ended (.ok v) } : Task).Kept engine session where
  asking := nofun
  resolving := nofun
  searching := nofun
  ended _ _ _ := ⟨_, htold⟩
  answered _ hstage := by
    cases hstage
    exact ⟨g, job, htold, hjob, hv⟩

/-- A request that looks at the graph which it was told. -/
theorem kept_of_searched {g : Graph} {f : Filter} {kind : Option MemberKind} {left : List Symbol}
    {m : Meter} {found : List RowKey × List Row} (htold : t.Told session (.ok g))
    (hjob : t.request.job = .ok (.references f kind))
    (hsearched : Searched engine g f kind left found) :
    ({ t with stage := .searching g kind left m found } : Task).Kept engine session where
  asking := nofun
  resolving := nofun
  searching _ _ _ _ _ hstage := by
    cases hstage
    exact ⟨htold, f, hjob, hsearched⟩
  ended := nofun
  answered := nofun

/-- A request that has just come in. -/
theorem kept_of_asking {r : Request} {job : Job} (hjob : r.job = .ok job) (call : Option Nat) :
    (⟨r, call, .asking job⟩ : Task).Kept engine session where
  asking _ hstage := by
    cases hstage
    exact hjob
  resolving := nofun
  searching := nofun
  ended := nofun
  answered := nofun

/-- A request that was refused. -/
theorem kept_of_refused (r : Request) (failure : Failure) :
    (⟨r, none, .ended (.error failure)⟩ : Task).Kept engine session where
  asking := nofun
  resolving := nofun
  searching := nofun
  ended := nofun
  answered := nofun

/-- A request takes the graph. -/
theorem Kept.continue (h : t.Kept engine session) {job : Job} (hstage : t.stage = .asking job)
    {told : Except Failure Graph} (htold : t.Told session told) (stopped : Bool) :
    ({ t with stage := job.continue stopped told } : Task).Kept engine session := by
  have hjob := h.asking job hstage
  cases told with
  | error failure => exact kept_of_failure htold failure
  | ok g =>
    cases job with
    | projects => exact kept_of_answers htold hjob rfl
    | refresh => exact kept_of_answers htold hjob rfl
    | references f kind =>
      cases stopped with
      | true => exact kept_of_failure htold _
      | false =>
        exact {
          asking := nofun
          resolving := fun _ _ _ hstage => by
            cases hstage
            exact ⟨htold, hjob⟩
          searching := nofun
          ended := nofun
          answered := nofun }

/-- **A step of a request works on the graph that it took.** -/
theorem Kept.advance (h : t.Kept engine session) (e : σ) :
    ({ t with stage := (t.stage.advance engine e).1 } : Task).Kept engine session := by
  obtain ⟨request, call, stage⟩ := t
  cases stage with
  | asking job => exact h
  | ended r => exact h
  | cancelled => exact h
  | resolving g f kind =>
    obtain ⟨htold, hjob⟩ := h.resolving g f kind rfl
    rw [Stage.advance]
    rcases hran : (meant g f kind : Metered σ _).runFrom {} e with ⟨failure | symbols, m, e'⟩
    · exact kept_of_failure htold failure
    · have hsymbols : symbols = symbolsNamed g f kind :=
        symbols_of_meant rfl (congrArg Prod.fst hran)
      dsimp only
      by_cases hempty : symbols.isEmpty
      · rw [if_pos hempty]
        have hsearched : Searched engine g f kind [] ([], []) := by
          have hnil := List.isEmpty_iff.mp hempty
          rw [← hnil, hsymbols]
          exact searched_nil
        have hanswers := hsearched.answers
        rw [Row.sort_eq] at hanswers
        exact kept_of_answers htold hjob hanswers
      · rw [if_neg hempty, distinct_eq, hsymbols,
          firstOfEach_eq_self (nodup_symbolsNamed g f kind)]
        exact kept_of_searched htold hjob searched_nil
  | searching g kind left m found =>
    obtain ⟨htold, f, hjob, hsearched⟩ := h.searching g kind left m found rfl
    cases left with
    | nil => exact kept_of_answers htold hjob hsearched.answers
    | cons s left =>
      rw [Stage.advance]
      rcases hran : (searchOne engine g s).runFrom m e with ⟨failure | locations, m', e'⟩
      · exact kept_of_failure htold failure
      · refine kept_of_searched htold hjob (hsearched.concat (m := { m with looks := m.looks + 1 })
          (e := e) ?_)
        rw [searchOne, Metered.runFrom_bind, Metered.runFrom_checkpoint] at hran
        cases hpasses : m.passes with
        | false =>
          rw [hpasses] at hran
          cases hran
        | true =>
          rw [hpasses, if_pos rfl] at hran
          exact congrArg Prod.fst hran

end Task

namespace Traffic

variable {w : Traffic σ}

/-! ### Runs -/

/-- Requests drive the calls for the graph. -/
theorem drives (engine : Engine σ) : Drives Traffic.session (Traffic.step engine) := by
  intro w h
  cases h with
  | accessor e => exact .inr ⟨e, rfl⟩
  | drift e => exact .inl rfl
  | stop => exact .inr ⟨.close, rfl⟩
  | start r =>
    rw [step, start]
    split
    · exact .inl rfl
    · next job _ => exact .inr ⟨.arrive job.asks, rfl⟩
  | advance i =>
    left
    rw [step, advance]
    split
    · rfl
    · split
      · split <;> rfl
      · rfl
  | cancel i =>
    rw [step, cancel]
    split
    · next c _ _ =>
      split
      · exact .inr ⟨.cancel c, rfl⟩
      · exact .inl rfl
    · exact .inl rfl
    · exact .inl rfl
    · exact .inl rfl

/-- Every call is served, and every request keeps what it holds. -/
structure Kept (engine : Engine σ) (w : Traffic σ) : Prop where
  served : w.session.Served
  tasks : ∀ t ∈ w.tasks, t.Kept engine w.session

theorem mem_setStage {i : Nat} {stage : Stage} {t' : Task}
    (h : t' ∈ (w.setStage i stage).tasks) :
    t' ∈ w.tasks ∨ ∃ t, w.tasks[i]? = some t ∧ t' = { t with stage } := by
  obtain ⟨j, hj⟩ := List.mem_iff_getElem?.mp h
  rw [getElem?_setStage] at hj
  split at hj
  case isTrue hij =>
    obtain ⟨t, ht, rfl⟩ := Option.map_eq_some_iff.mp hj
    exact .inr ⟨t, hij ▸ ht, rfl⟩
  case isFalse => exact .inl (List.mem_of_getElem? hj)

theorem told_of_told? {t : Task} {r : Except Failure Graph} (h : w.told? t = some r) :
    t.Told w.session r := by
  rw [told?] at h
  split at h
  case h_2 => cases h
  case h_1 request r' captured hcall =>
    obtain rfl := Option.some.inj h
    obtain ⟨c, hc, hcall⟩ := Option.bind_eq_some_iff.mp hcall
    exact ⟨c, _, hc, hcall, rfl⟩

/-- What all requests hold stays true while a step of the session is made. -/
theorem Kept.session_step (h : w.Kept engine) (e : Sharing.Event Graph) :
    Kept engine { w with session := w.session.step e } :=
  ⟨h.served.step e, fun t ht =>
    (h.tasks t ht).later fun _ _ hc => h.served.exists_later_step hc e⟩

/-- One more request, which holds nothing yet. -/
theorem Kept.concat (h : w.Kept engine) {t : Task} (ht : t.Kept engine w.session) :
    Kept engine { w with tasks := w.tasks ++ [t] } := by
  refine ⟨h.served, fun t' ht' => ?_⟩
  rcases List.mem_append.mp ht' with ht' | ht'
  · exact h.tasks t' ht'
  · rw [List.mem_singleton.mp ht']
    exact ht

/-- One request at another stage. -/
theorem Kept.setStage (h : w.Kept engine) {i : Nat} {stage : Stage}
    (hstage : ∀ t, w.tasks[i]? = some t → ({ t with stage } : Task).Kept engine w.session) :
    (w.setStage i stage).Kept engine := by
  refine ⟨h.served, fun t' ht' => ?_⟩
  rcases mem_setStage ht' with ht' | ⟨t, ht, rfl⟩
  · exact h.tasks t' ht'
  · exact hstage t ht

theorem Kept.start (h : w.Kept engine) (r : Request) : (w.start r).Kept engine := by
  rw [Traffic.start]
  cases hjob : r.job with
  | error f => exact h.concat (Task.kept_of_refused r f)
  | ok job => exact (h.session_step (.arrive job.asks)).concat (Task.kept_of_asking hjob _)

theorem Kept.advance (h : w.Kept engine) (i : Nat) : (w.advance engine i).Kept engine := by
  rw [Traffic.advance]
  cases ht : w.tasks[i]? with
  | none => exact h
  | some t =>
    have hkept := h.tasks t (List.mem_of_getElem? ht)
    have hother : ∀ {stage : Stage}, ({ t with stage } : Task).Kept engine w.session →
        (w.setStage i stage).Kept engine := fun hstage =>
      h.setStage fun t' ht' => Option.some.inj (ht.symm.trans ht') ▸ hstage
    dsimp only
    split
    · next job hstage =>
      split
      · next r hr => exact hother (hkept.continue hstage (told_of_told? hr) w.stopped)
      · exact h
    · have hadvanced := hother (hkept.advance w.engine)
      exact ⟨hadvanced.served, hadvanced.tasks⟩

theorem Kept.cancel (h : w.Kept engine) (i : Nat) : (w.cancel i).Kept engine := by
  have hcancelled : (w.setStage i .cancelled).Kept engine :=
    h.setStage fun t _ => ⟨nofun, nofun, nofun, nofun, nofun⟩
  rw [Traffic.cancel]
  split
  · next c _ _ =>
    split
    · exact hcancelled.session_step (.cancel c)
    · exact h
  · exact hcancelled
  · exact hcancelled
  · exact h

theorem Kept.step (h : w.Kept engine) (happening : Happening σ) :
    (w.step engine happening).Kept engine := by
  cases happening with
  | accessor e => exact h.session_step e
  | drift e => exact ⟨h.served, h.tasks⟩
  | start r => exact h.start r
  | advance i => exact h.advance i
  | cancel i => exact h.cancel i
  | stop =>
    have hclosed := h.session_step .close
    exact ⟨hclosed.served, hclosed.tasks⟩

/-- **Whatever happens, every request keeps to the graph that it took.** -/
theorem kept_run (h : w.Kept engine) (happenings : List (Happening σ)) :
    (w.run engine happenings).Kept engine := by
  induction happenings generalizing w with
  | nil => exact h
  | cons happening happenings ih => exact ih (h.step happening)

theorem kept_fresh (root : String) (limit : Option String) (e : σ) :
    (fresh root limit e).Kept engine :=
  ⟨Session.served_fresh root limit, fun _ ht => absurd ht List.not_mem_nil⟩

/-! ### A request along a run -/

/-- A step leaves the requests as they are, adds one, or changes the stage of one. -/
theorem tasks_step_cases (engine : Engine σ) (w : Traffic σ) (happening : Happening σ) :
    (w.step engine happening).tasks = w.tasks ∨
      (∃ t, (w.step engine happening).tasks = w.tasks ++ [t]) ∨
      ∃ i stage, (w.step engine happening).tasks = (w.setStage i stage).tasks := by
  cases happening with
  | accessor e => exact .inl rfl
  | drift e => exact .inl rfl
  | stop => exact .inl rfl
  | start r =>
    rw [step, start]
    split
    · exact .inr (.inl ⟨_, rfl⟩)
    · exact .inr (.inl ⟨_, rfl⟩)
  | advance i =>
    rw [step, advance]
    split
    · exact .inl rfl
    · split
      · split
        · exact .inr (.inr ⟨i, _, rfl⟩)
        · exact .inl rfl
      · exact .inr (.inr ⟨i, _, rfl⟩)
  | cancel i =>
    rw [step, cancel]
    split
    · split
      · exact .inr (.inr ⟨i, .cancelled, rfl⟩)
      · exact .inl rfl
    · exact .inr (.inr ⟨i, .cancelled, rfl⟩)
    · exact .inr (.inr ⟨i, .cancelled, rfl⟩)
    · exact .inl rfl

variable (engine) in
/-- A request stays at its place, with its call. -/
theorem exists_task_step {i : Nat} {t : Task} (ht : w.tasks[i]? = some t)
    (happening : Happening σ) :
    ∃ t', (w.step engine happening).tasks[i]? = some t' ∧ t'.request = t.request ∧
      t'.call = t.call := by
  rcases tasks_step_cases engine w happening with htasks | ⟨t', htasks⟩ | ⟨j, stage, htasks⟩ <;>
    rw [htasks]
  · exact ⟨t, ht, rfl, rfl⟩
  · have hlt : i < w.tasks.length := (List.getElem?_eq_some_iff.mp ht).1
    exact ⟨t, (List.getElem?_append_left hlt).trans ht, rfl, rfl⟩
  · rw [getElem?_setStage, ht]
    split
    · exact ⟨_, rfl, rfl, rfl⟩
    · exact ⟨t, rfl, rfl, rfl⟩

variable (engine) in
theorem exists_task_run {i : Nat} {t : Task} (ht : w.tasks[i]? = some t)
    (happenings : List (Happening σ)) :
    ∃ t', (w.run engine happenings).tasks[i]? = some t' ∧ t'.request = t.request ∧
      t'.call = t.call := by
  induction happenings generalizing w t with
  | nil => exact ⟨t, ht, rfl, rfl⟩
  | cons happening happenings ih =>
    obtain ⟨t₁, ht₁, hrequest, hcall⟩ := exists_task_step engine ht happening
    obtain ⟨t', ht', hrequest', hcall'⟩ := ih ht₁
    exact ⟨t', ht', hrequest'.trans hrequest, hcall'.trans hcall⟩

/-- A request that has come in has a call of its own, if it is not refused. -/
theorem exists_task_start (w : Traffic σ) (r : Request) :
    ∃ t, (w.start r).tasks[w.tasks.length]? = some t ∧ t.request = r ∧
      ∀ c, t.call = some c → c = w.session.calls.length := by
  rw [start]
  cases r.job with
  | error f =>
    refine ⟨_, List.getElem?_concat_length, rfl, ?_⟩
    rintro c ⟨⟩
  | ok job =>
    refine ⟨_, List.getElem?_concat_length, rfl, ?_⟩
    rintro c ⟨⟩
    rfl

/-- The generation that a request has captured. -/
def captured? (w : Traffic σ) (t : Task) : Option Nat :=
  (t.call.bind (w.session.calls[·]?)).bind Call.captured

/-- **Every answer comes from one generation, and from no old one.** Requests go on in any order
with loads, cancelled calls and others who ask for the graph. Let a request come in after some of
that and be answered in the end. Then it has captured a generation that was loaded with a graph,
such that:

* the whole answer is one from that graph;
* at one step after the request came in it captured that generation: before it the request had
  captured none, and after it that generation was the present one;
* it is no older than the generation of any request, a refresh say, that had ended before the
  request came in, other than by being cancelled;
* nor than that of any call for the graph that had been told an outcome by then. -/
theorem answered_from_one_generation (engine : Engine σ) (root : String) (limit : Option String)
    (e : σ) (before after : List (Happening σ)) (r : Request) {t : Task} {v : Json.Value}
    (ht : ((fresh root limit e).run engine (before ++ .start r :: after)).tasks[
      ((fresh root limit e).run engine before).tasks.length]? = some t)
    (hv : t.stage = .ended (.ok v)) :
    let w₀ := (fresh root limit e).run engine before
    let w := (fresh root limit e).run engine (before ++ .start r :: after)
    ∃ n g job, w.captured? t = some n ∧ w.session.shared.outcome? n = some (.ok g) ∧
      r.job = .ok job ∧ job.Answers engine g v ∧
      (∃ earlier happening later, .start r :: after = earlier ++ happening :: later ∧
        (w₀.run engine earlier).captured? t = none ∧
        (w₀.run engine (earlier ++ [happening])).session.shared.current = some n) ∧
      (∀ t₀ ∈ w₀.tasks, ∀ r₀, t₀.stage = .ended r₀ → ∀ k, w₀.captured? t₀ = some k → k ≤ n) ∧
      ∀ d ∈ w₀.session.calls, ∀ r₀, d.status = .done r₀ → ∀ k, d.captured = some k → k ≤ n := by
  intro w₀ w
  have hrun : w = w₀.run engine (.start r :: after) := run_append _ _ _
  have h₀ : w₀.Kept engine := kept_run (kept_fresh root limit e) before
  have h : w.Kept engine := kept_run (kept_fresh root limit e) _
  -- the request has its call from the start on
  obtain ⟨hrequest, hown⟩ : t.request = r ∧ ∀ c, t.call = some c → c = w₀.session.calls.length := by
    obtain ⟨t₁, ht₁, hrequest, hcall⟩ := exists_task_start w₀ r
    obtain ⟨t', ht', hrequest', hcall'⟩ := exists_task_run engine ht₁ after
    obtain rfl : t = t' := by
      have htask : w.tasks[w₀.tasks.length]? = some t := ht
      rw [hrun] at htask
      exact Option.some.inj (htask.symm.trans ht')
    exact ⟨hrequest'.trans hrequest, fun c hc => hcall c (hcall'.symm.trans hc)⟩
  obtain ⟨g, job, ⟨c, call, hc, hcall, hdone⟩, hjob, hanswers⟩ :=
    (h.tasks t (List.mem_of_getElem? ht)).answered v hv
  obtain ⟨n, hn, hout⟩ := h.served.exists_of_done_ok (List.mem_of_getElem? hcall) hdone
  have hnew : ∀ call, w₀.session.calls[c]? = some call → call.captured = none := by
    intro call hcall
    have hlt := (List.getElem?_eq_some_iff.mp hcall).1
    exact absurd (hown c hc) (Nat.ne_of_lt hlt)
  have hcalls : ∀ d ∈ w₀.session.calls, ∀ r₀, d.status = .done r₀ → ∀ k, d.captured = some k →
      k ≤ n := by
    intro d hd r₀ hr₀ k hk
    obtain ⟨j, hj⟩ := List.mem_iff_getElem?.mp hd
    rw [hrun] at hcall
    exact (drives engine).le_captured h₀.served hj hr₀ hk _ hnew hcall hn
  refine ⟨n, g, job, ?_, hout, hrequest ▸ hjob, hanswers, ?_, fun t₀ ht₀ r₀ hr₀ k hk => ?_, hcalls⟩
  · rw [captured?, hc, Option.bind_some, hcall, Option.bind_some, hn]
  · rw [hrun] at hcall
    rcases (drives engine).exists_capture h₀.served _ hcall hn with
      ⟨call', hcall', hn'⟩ | ⟨earlier, happening, later, hsplit, hbefore, hafter⟩
    · rw [hnew call' hcall'] at hn'
      cases hn'
    · refine ⟨earlier, happening, later, hsplit, ?_, hafter⟩
      rw [captured?, hc, Option.bind_some]
      cases hcall' : (w₀.run engine earlier).session.calls[c]? with
      | none => rfl
      | some call' => exact hbefore call' hcall'
  · -- a request that has ended was told an outcome, if it had a call
    obtain ⟨call₀, hcall₀, hk⟩ := Option.bind_eq_some_iff.mp hk
    obtain ⟨c₀, hc₀, hcall₀⟩ := Option.bind_eq_some_iff.mp hcall₀
    obtain ⟨told, c₁, call₁, hc₁, hcall₁, htold⟩ := (h₀.tasks t₀ ht₀).ended r₀ hr₀ (by simp [hc₀])
    obtain rfl : c₀ = c₁ := Option.some.inj (hc₀.symm.trans hc₁)
    obtain rfl := Option.some.inj (hcall₀.symm.trans hcall₁)
    exact hcalls call₀ (List.mem_of_getElem? hcall₀) told htold k hk

/-- The graph was loaded. -/
def loadedOnce : List (Happening Unit) :=
  [.start .refresh, .accessor (.enter 0), .accessor .begin,
    .accessor (.finish 1 (.ok workshop)), .accessor (.deliver 0), .advance 0]

/-- The places where the setters of `size` are referred to. -/
def settersOfSize : Request :=
  .references { kind := some .property, typeName := some "node", memberName := some "size"
                accessors := some "set" }

/-- While the setters are looked up and searched, the graph is loaded again, and holds nothing any
more. -/
def overtaken : List (Happening Unit) :=
  [.advance 1, .start .refresh, .accessor (.enter 2), .advance 1, .accessor .begin,
    .accessor (.finish 2 (.ok { projects := [], references := [] })), .accessor (.deliver 2),
    .advance 2, .advance 1, .advance 1]

/-- A request that is overtaken by a refresh is answered from the graph that it took: it finds the
setter, although the present graph holds none. -/
theorem answered_from_one_generation_overtaken :
    let w₀ := (fresh "/ws" none ()).run shelf loadedOnce
    let w := (fresh "/ws" none ()).run shelf (loadedOnce ++ .start settersOfSize :: overtaken)
    let v := rowsValue (some .property)
      (Row.sort [⟨"p:size.set", "/a", 3⟩, ⟨"p:size.set", "/b", 7⟩])
    let t : Task := ⟨settersOfSize, some 1, .ended (.ok v)⟩
    w.tasks[1]? = some t ∧ w.session.shared.current = some 2 ∧ w.captured? t = some 1 ∧
      (∃ job, settersOfSize.job = .ok job ∧ job.Answers shelf workshop v) ∧
      ∀ t₀ ∈ w₀.tasks, ∀ r₀, t₀.stage = .ended r₀ → ∀ k, w₀.captured? t₀ = some k → k ≤ 1 := by
  intro w₀ w v t
  have ht : w.tasks[1]? = some t := rfl
  obtain ⟨n, g, job, hn, hout, hjob, hanswers, -, hfresh, -⟩ :=
    answered_from_one_generation shelf "/ws" none () loadedOnce overtaken settersOfSize ht rfl
  have hcaptured : w.captured? t = some 1 := rfl
  obtain rfl : 1 = n := Option.some.inj (hcaptured.symm.trans hn)
  have hloaded : w.session.shared.outcome? 1 = some (.ok workshop) := rfl
  obtain rfl : workshop = g := by simpa using hloaded.symm.trans hout
  exact ⟨ht, rfl, hcaptured, ⟨job, hjob, hanswers⟩, hfresh⟩

end Traffic

/-! ### The engine that works on a file tree -/

/-- **On a file tree the graph and the job determine the answer**: the places are those that were
loaded with the graph. -/
theorem Job.Answers.eq_located {tree : σ → Entry} {settings : Settings} {g : Graph} {f : Filter}
    {kind : Option MemberKind} {v : Json.Value}
    (h : (Job.references f kind).Answers (Engine.ofFiles tree settings) g v) :
    v = rowsValue kind (reference (located g) g f kind) := by
  obtain ⟨find, hfind, rfl⟩ := h
  have hlocated : ∀ s ∈ symbolsNamed g f kind, find s.id = located g s.id := by
    intro s hs
    obtain ⟨m, e, hok⟩ := hfind s hs
    have hsteadfast : (indexed g s : Metered σ _).Steadfast :=
      (plain_lookUp s.id g.references).steadfast
    have hok' : ((indexed g s : Metered σ _).runFrom m e).1 = .ok (find s.id) := hok
    rcases hsteadfast.outcome (finds_indexed g s) m e with ⟨reason, hoff⟩ | hlocated
    · rw [hok'] at hoff
      cases hoff
    · exact Except.ok.inj (hok'.symm.trans hlocated)
  have hhits : hits find (symbolsNamed g f kind) = hits (located g) (symbolsNamed g f kind) :=
    List.flatMap_congr fun s hs => by rw [hlocated s hs]
  rw [reference, hhits]
  rfl

end Concordance.Service
