import Concordance.Proofs.Service.Validation
import Concordance.Proofs.Sharing.Freshness

/-!
# Requests at the same time

`Service.answer` answers one request after the other. Here requests are tasks that go on in any
order. A task asks for the graph and waits for it among the calls of a session; with the graph it
looks up the symbols that are meant, searches them one after the other, and ends with a value.
Between any two of these steps other tasks may go on, loads may begin and end, callers may go away,
and the state of the engine may become any.

A task takes the graph once, and its later steps work on what it took. That is all that the order of
steps leaves to be proved about a single task; it is done in `Concordance.Proofs.Service.Snapshots`.

## Main definitions

* `Stage`, `Task`: a request and how far it has come
* `Traffic`, `Traffic.step`, `Traffic.run`: requests at the same time
* `Stage.outcome?`: what is left to be done by a task that has the graph

## Main results

* `Stage.outcome_advance`: a step of a task does a part of what is left to be done
* `Stage.exists_next_ended`: a task that nothing comes between answers as `Query.answer` does
* `Traffic.exists_run_answer`: requests one after the other are a special case
-/

namespace Concordance.Service

open Sharing

/-! ### Tasks -/

/-- What is to be done with the graph, once the arguments of a request were checked. -/
inductive Job where
  | projects
  | refresh
  | references (filter : Query.Filter) (kind : Option MemberKind)

/-- What a request wants to be done. -/
def Request.job : Request → Except Failure Job
  | .projects => .ok .projects
  | .refresh => .ok .refresh
  | .references t => t.filter.map fun filter => .references filter t.kind

/-- How the graph is asked for. -/
def Job.asks : Job → Sharing.Request
  | .refresh => .reload
  | _ => .get

/-- Rows as a value. -/
def rowsValue (kind : Option MemberKind) (rows : List Row) : Json.Value :=
  .array (rows.map (rowValue (symbolColumn kind)))

/-- How far a request has come. -/
inductive Stage where
  /-- The graph was asked for. -/
  | asking (job : Job)
  /-- The graph was taken. -/
  | resolving (g : Graph) (filter : Query.Filter) (kind : Option MemberKind)
  /-- The symbols are known; some of them are left to be searched. -/
  | searching (g : Graph) (kind : Option MemberKind) (left : List Symbol) (m : Meter)
      (found : List Query.RowKey × List Row)
  | ended (r : Except Failure Json.Value)
  | cancelled

/-- A request with its call for the graph, which it has unless its arguments were refused. -/
structure Task where
  request : Request
  call : Option Nat
  stage : Stage

/-- What comes after the call for the graph was answered. -/
def Job.continue (job : Job) (stopped : Bool) : Except Failure Graph → Stage
  | .error f => .ended (.error f)
  | .ok g =>
    match job with
    | .projects => .ended (.ok (.array (g.projects.map projectValue)))
    | .refresh => .ended (.ok (.object [("Ok", .bool true)]))
    | .references filter kind =>
      if stopped then .ended (.error (.state "cannot schedule new futures after shutdown"))
      else .resolving g filter kind

section

variable {σ : Type} (engine : Engine σ)

/-- Search one symbol, after a look at the meter. -/
def searchOne (g : Graph) (s : Symbol) : Metered σ (List Location) := do
  checkpoint
  engine.search g s

/-- The next step with a graph. -/
def Stage.advance (e : σ) : Stage → Stage × σ
  | .resolving g filter kind =>
    match (Query.meant g filter kind : Metered σ _).runFrom {} e with
    | (.error f, _, e) => (.ended (.error f), e)
    | (.ok symbols, m, e) =>
      if symbols.isEmpty then (.ended (.ok (rowsValue kind [])), e)
      else (.searching g kind (Symbol.distinct symbols) m ([], []), e)
  | .searching g kind (s :: left) m found =>
    match (searchOne engine g s).runFrom m e with
    | (.error f, _, e) => (.ended (.error f), e)
    | (.ok locations, m, e) => (.searching g kind left m (Query.collectRows s locations found), e)
  | .searching _ kind [] _ found => (.ended (.ok (rowsValue kind (Row.sort found.2))), e)
  | stage => (stage, e)

end

/-! ### Requests at the same time -/

/-- The calls for the graph, the state of the engine, and the requests, the earliest first. -/
structure Traffic (σ : Type) where
  session : Session Graph
  engine : σ
  stopped : Bool := false
  tasks : List Task := []

/-- What can happen. Requests are told by their place. -/
inductive Happening (σ : Type) where
  /-- A load goes on, a call starts to wait or is told an outcome, or the graph is asked for by
  someone else. -/
  | accessor (e : Sharing.Event Graph)
  /-- The state of the engine becomes another one. -/
  | drift (e : σ)
  | start (r : Request)
  | advance (task : Nat)
  | cancel (task : Nat)
  | stop

namespace Traffic

variable {σ : Type} {engine : Engine σ}

/-- No request yet, and no load. -/
def fresh (root : String) (limit : Option String) (e : σ) : Traffic σ :=
  { session := Session.fresh root limit, engine := e }

/-- Change the stage of a request. -/
def setStage (w : Traffic σ) (i : Nat) (stage : Stage) : Traffic σ :=
  { w with tasks := w.tasks.modify i fun t => { t with stage } }

/-- A request comes in: its arguments are checked, then it asks for the graph. -/
def start (w : Traffic σ) (r : Request) : Traffic σ :=
  match r.job with
  | .error f => { w with tasks := w.tasks ++ [⟨r, none, .ended (.error f)⟩] }
  | .ok job =>
    { w with
      session := w.session.arrive job.asks
      tasks := w.tasks ++ [⟨r, some w.session.calls.length, .asking job⟩] }

/-- What a request was told when it asked for the graph. -/
def told? (w : Traffic σ) (t : Task) : Option (Except Failure Graph) :=
  match t.call.bind (w.session.calls[·]?) with
  | some ⟨_, .done r, _⟩ => some r
  | _ => none

/-- A request goes on, if it can. -/
def advance (engine : Engine σ) (w : Traffic σ) (i : Nat) : Traffic σ :=
  match w.tasks[i]? with
  | none => w
  | some t =>
    match t.stage with
    | .asking job =>
      match w.told? t with
      | some r => w.setStage i (job.continue w.stopped r)
      | none => w
    | stage =>
      let next := stage.advance engine w.engine
      { w.setStage i next.1 with engine := next.2 }

/-- The caller of a request goes away. While the request waits for the graph its call is cancelled;
afterwards nobody gets what it finds. -/
def cancel (w : Traffic σ) (i : Nat) : Traffic σ :=
  match w.tasks[i]? with
  | some ⟨_, some c, .asking _⟩ =>
    if (w.session.awaited? c).isSome then
      { w.setStage i .cancelled with session := w.session.cancel c }
    else w
  | some ⟨_, _, .resolving ..⟩ => w.setStage i .cancelled
  | some ⟨_, _, .searching ..⟩ => w.setStage i .cancelled
  | _ => w

/-- Go on by what happens. -/
def step (engine : Engine σ) (w : Traffic σ) : Happening σ → Traffic σ
  | .accessor e => { w with session := w.session.step e }
  | .drift e => { w with engine := e }
  | .start r => w.start r
  | .advance i => w.advance engine i
  | .cancel i => w.cancel i
  | .stop => { w with stopped := true, session := w.session.step .close }

/-- Go on by all that happens, one after the other. -/
def run (engine : Engine σ) (w : Traffic σ) (happenings : List (Happening σ)) : Traffic σ :=
  happenings.foldl (step engine) w

/-! ### Steps of a request with the graph -/

end Traffic

/-- What is left to be done by a request that has the graph, and what it leaves, if nothing comes
between. -/
def Stage.outcome? {σ : Type} (engine : Engine σ) (e : σ) :
    Stage → Option (Except Failure Json.Value × σ)
  | .resolving g filter kind =>
    let ran := (Query.answer engine.search g filter kind).runFrom {} e
    some (ran.1.map (rowsValue kind), ran.2.2)
  | .searching g kind left m found =>
    let ran := (Query.searchAll engine.search g left found).runFrom m e
    some (ran.1.map fun rows => rowsValue kind (Row.sort rows), ran.2.2)
  | .ended r => some (r, e)
  | .asking _ => none
  | .cancelled => none

section

variable {σ : Type} {engine : Engine σ}

theorem searchAll_cons (g : Graph) (s : Symbol) (left : List Symbol)
    (found : List Query.RowKey × List Row) :
    Query.searchAll engine.search g (s :: left) found = searchOne engine g s >>= fun locations =>
      Query.searchAll engine.search g left (Query.collectRows s locations found) := by
  rw [Query.searchAll, searchOne, bind_assoc]

/-- **A step does a part of what is left to be done.** -/
theorem Stage.outcome_advance (stage : Stage) (e : σ) :
    (stage.advance engine e).1.outcome? engine (stage.advance engine e).2 =
      stage.outcome? engine e := by
  cases stage with
  | asking job => rfl
  | ended r => rfl
  | cancelled => rfl
  | resolving g filter kind =>
    rw [Stage.advance, Stage.outcome?, Query.answer, Metered.runFrom_bind]
    rcases (Query.meant g filter kind : Metered σ _).runFrom {} e with ⟨f | symbols, m, e'⟩
    · rfl
    · dsimp only
      by_cases hempty : symbols.isEmpty
      · rw [if_pos hempty, if_pos hempty]
        rfl
      · rw [if_neg hempty, if_neg hempty, Query.aggregate, Metered.runFrom_bind]
        rw [Stage.outcome?]
        rcases (Query.searchAll engine.search g (Symbol.distinct symbols) ([], [])).runFrom m e'
          with ⟨f | rows, _, _⟩ <;> rfl
  | searching g kind left m found =>
    cases left with
    | nil =>
      obtain ⟨seen, rows⟩ := found
      rfl
    | cons s left =>
      rw [Stage.advance, Stage.outcome?, searchAll_cons, Metered.runFrom_bind]
      rcases (searchOne engine g s).runFrom m e with ⟨f | locations, _, _⟩
      · rfl
      · rfl

/-- A step of a request, with the state of the engine. -/
def Stage.next (engine : Engine σ) (at_ : Stage × σ) : Stage × σ := at_.1.advance engine at_.2

theorem Stage.exists_next_ended_searching {g : Graph} {kind : Option MemberKind}
    {left : List Symbol} {m : Meter} {found : List Query.RowKey × List Row}
    {r : Except Failure Json.Value} {e e' : σ}
    (h : (searching g kind left m found).outcome? engine e = some (r, e')) :
    ∃ k, (next engine)^[k] (searching g kind left m found, e) = (.ended r, e') := by
  induction left generalizing m found e with
  | nil =>
    obtain ⟨seen, rows⟩ := found
    cases h
    exact ⟨1, rfl⟩
  | cons s left ih =>
    have hnext : (next engine (searching g kind (s :: left) m found, e)).1.outcome? engine
        (next engine (searching g kind (s :: left) m found, e)).2 = some (r, e') :=
      (outcome_advance _ e).trans h
    rw [next, advance] at hnext
    rcases hran : (searchOne engine g s).runFrom m e with ⟨f | locations, m', e''⟩ <;>
      rw [hran] at hnext
    · cases hnext
      refine ⟨1, ?_⟩
      rw [Function.iterate_one, next, advance, hran]
    · obtain ⟨k, hk⟩ := ih hnext
      refine ⟨k + 1, ?_⟩
      rw [Function.iterate_succ_apply, next, advance, hran]
      exact hk

/-- Steps of a request that has the graph lead to its end. -/
theorem Stage.exists_next_ended {stage : Stage} {r : Except Failure Json.Value} {e e' : σ}
    (h : stage.outcome? engine e = some (r, e')) :
    ∃ k, (next engine)^[k] (stage, e) = (.ended r, e') := by
  cases stage with
  | asking job => cases h
  | cancelled => cases h
  | ended r =>
    cases h
    exact ⟨0, rfl⟩
  | searching g kind left m found => exact exists_next_ended_searching h
  | resolving g filter kind =>
    have hnext : (next engine (resolving g filter kind, e)).1.outcome? engine
        (next engine (resolving g filter kind, e)).2 = some (r, e') :=
      (outcome_advance _ e).trans h
    suffices ∃ k, (next engine)^[k] (next engine (resolving g filter kind, e)) =
        (.ended r, e') by
      obtain ⟨k, hk⟩ := this
      exact ⟨k + 1, hk⟩
    rw [next, advance] at hnext ⊢
    rcases hran : (Query.meant g filter kind : Metered σ _).runFrom {} e with
      ⟨f | symbols, m, e''⟩ <;> rw [hran] at hnext
    · cases hnext
      exact ⟨0, rfl⟩
    · dsimp only at hnext ⊢
      by_cases hempty : symbols.isEmpty
      · rw [if_pos hempty] at hnext ⊢
        cases hnext
        exact ⟨0, rfl⟩
      · rw [if_neg hempty] at hnext ⊢
        exact exists_next_ended_searching hnext

namespace Traffic

variable {w : Traffic σ} {i : Nat} {t : Task}

theorem getElem?_setStage (w : Traffic σ) (i j : Nat) (stage : Stage) :
    (w.setStage i stage).tasks[j]? =
      if i = j then (w.tasks[j]?).map fun t => { t with stage } else w.tasks[j]? := by
  rw [setStage]
  by_cases h : i = j <;> simp [h]

theorem setStage_setStage (w : Traffic σ) (i : Nat) (stage stage' : Stage) :
    (w.setStage i stage).setStage i stage' = w.setStage i stage' := by
  rw [setStage, setStage, setStage, List.modify_modify_eq]
  rfl

theorem setStage_self (ht : w.tasks[i]? = some t) : w.setStage i t.stage = w := by
  have htasks : w.tasks.modify i (fun t' => { t' with stage := t.stage }) = w.tasks := by
    refine List.ext_getElem? fun j => ?_
    rw [List.getElem?_modify]
    by_cases hj : i = j
    · subst hj
      simp [ht]
    · simp [hj]
  rw [setStage, htasks]

/-- A request that has the graph goes on by a step. -/
theorem advance_of_outcome {r : Except Failure Json.Value × σ} (ht : w.tasks[i]? = some t)
    (h : t.stage.outcome? engine w.engine = some r) :
    w.advance engine i = { w.setStage i (t.stage.advance engine w.engine).1 with
      engine := (t.stage.advance engine w.engine).2 } := by
  rw [advance, ht]
  dsimp only
  split
  · next hstage => rw [hstage] at h; cases h
  · rfl

/-- A request that nothing comes between goes through the stages. -/
theorem run_advance (ht : w.tasks[i]? = some t) {r : Except Failure Json.Value × σ}
    (h : t.stage.outcome? engine w.engine = some r) (k : Nat) :
    let reached := (Stage.next engine)^[k] (t.stage, w.engine)
    w.run engine (List.replicate k (.advance i)) =
      { w.setStage i reached.1 with engine := reached.2 } := by
  induction k generalizing w t with
  | zero =>
    show w = { w.setStage i t.stage with engine := w.engine }
    rw [setStage_self ht]
  | succ k ih =>
    let w' : Traffic σ := { w.setStage i (t.stage.advance engine w.engine).1 with
      engine := (t.stage.advance engine w.engine).2 }
    have hnext : w'.tasks[i]? = some { t with stage := (t.stage.advance engine w.engine).1 } := by
      refine (getElem?_setStage w i i _).trans ?_
      rw [if_pos rfl, ht, Option.map_some]
    rw [List.replicate_succ, run, List.foldl_cons, step, advance_of_outcome ht h]
    refine (ih hnext ((t.stage.outcome_advance w.engine).trans h)).trans ?_
    show ({ (w.setStage i _).setStage i _ with engine := _ } : Traffic σ) = _
    rw [setStage_setStage]
    rfl

/-- **A request that nothing comes between does what is left to be done.** -/
theorem exists_run_advance (ht : w.tasks[i]? = some t) {r : Except Failure Json.Value} {e : σ}
    (h : t.stage.outcome? engine w.engine = some (r, e)) :
    ∃ k, w.run engine (List.replicate k (.advance i)) =
      { w.setStage i (.ended r) with engine := e } := by
  obtain ⟨k, hk⟩ := Stage.exists_next_ended h
  refine ⟨k, ?_⟩
  rw [run_advance ht h, hk]

/-! ### Requests one after the other -/

/-- The only request, at a service to which nothing else happens. -/
def ofService (s : Service) (e : σ) : Traffic σ :=
  { session := { shared := s.shared }, engine := e, stopped := s.stopped }

theorem run_append (w : Traffic σ) (earlier later : List (Happening σ)) :
    w.run engine (earlier ++ later) = (w.run engine earlier).run engine later :=
  List.foldl_append

theorem run_accessor (w : Traffic σ) (events : List (Sharing.Event Graph)) :
    w.run engine (events.map .accessor) = { w with session := w.session.run events } := by
  induction events generalizing w with
  | nil => rfl
  | cons e events ih => exact ih _

variable (engine) in
/-- Taking the graph is a call, with the load that it waits for if there is none. -/
theorem exists_run_graph {s : Service} (h : s.shared.Idle) (e : σ) (again : Bool) :
    let ran := (graph engine again).run (s, e)
    let request := if again then Sharing.Request.reload else .get
    ∃ events captured,
      (({ shared := s.shared } : Session Graph).arrive request).run events =
        { shared := ran.2.1.shared, calls := [⟨request, .done ran.1, captured⟩] } := by
  intro ran request
  have hran : ran = _ := run_graph_eq engine s e again
  cases hr : if again then none else s.shared.settled? with
  | some r =>
    -- there is an outcome, and no new load is wanted
    obtain rfl : again = false := by
      cases again with
      | true => cases hr
      | false => rfl
    have hsettled : s.shared.settled? = some r := hr
    have harrive : ({ shared := s.shared } : Session Graph).arrive request =
        { shared := s.shared, calls := [⟨request, .done r, s.shared.current⟩] } := by
      rw [Session.arrive, if_neg (by decide)]
      dsimp only
      rw [hsettled]
      rfl
    rw [if_neg (by decide), Shared.get, hsettled] at hran
    refine ⟨[], s.shared.current, ?_⟩
    rw [hran, harrive]
    cases r with
    | ok g => rfl
    | error f => rfl
  | none =>
    -- the call waits for a new load
    have hrequest : (if request = .reload then none else s.shared.settled?) = none := by
      rw [← hr]
      cases again <;> rfl
    have harrive : ({ shared := s.shared } : Session Graph).arrive request =
        { shared := s.shared, calls := [⟨request, .arrived, none⟩] } := by
      rw [Session.arrive]
      dsimp only
      rw [hrequest]
      rfl
    have htarget : (if request = .reload then none else s.shared.current) = none := by
      cases again with
      | true => rfl
      | false => exact h.current_eq_none hr
    have hasked : (if again then s.shared.reload else s.shared.get) =
        (s.shared.wait none).map fun waited => (.waiting waited.1, waited.2) := by
      cases again with
      | true => rfl
      | false =>
        have hsettled : s.shared.settled? = none := hr
        rw [if_neg (by decide), Shared.get, hsettled, h.current_eq_none hsettled]
    rw [hasked] at hran
    cases hw : s.shared.wait none with
    | error f =>
      refine ⟨[.enter 0], none, ?_⟩
      rw [hw] at hran
      rw [hran, harrive, Session.run, List.foldl_cons, List.foldl_nil, Session.step, Session.enter]
      dsimp only [List.getElem?_cons_zero]
      rw [Session.target, htarget, hw]
      rfl
    | ok waited =>
      obtain ⟨n, shared⟩ := waited
      obtain ⟨-, r, hout, -⟩ := h.load hw ((engine.load shared.root).runFrom {} e).1
      rw [hw] at hran
      have hawait : ran = (await engine n).run ({ s with shared }, e) := hran
      rw [run_await] at hawait
      dsimp only at hawait
      rw [hout] at hawait
      refine ⟨[.enter 0, .begin, .finish n ((engine.load shared.root).runFrom {} e).1, .deliver 0],
        some n, ?_⟩
      have henter : (({ shared := s.shared } : Session Graph).arrive request).enter 0 =
          { shared, calls := [⟨request, .waiting n, some n⟩] } := by
        rw [harrive, Session.enter]
        dsimp only [List.getElem?_cons_zero]
        rw [Session.target, htarget, hw]
        rfl
      show (((({ shared := s.shared } : Session Graph).arrive request).enter 0).run
        [.begin, .finish n _, .deliver 0]) = _
      rw [henter, hawait]
      simp only [Session.run, List.foldl_cons, List.foldl_nil, Session.step]
      rw [Session.deliver, Session.awaited?]
      dsimp only [List.getElem?_cons_zero]
      rw [hout]
      rfl

theorem run_bind_pure {α β : Type} (work : Work σ α) (f : α → β) (at_ : Service × σ) :
    (work >>= fun a => pure (f a)).run at_ = ((work.run at_).1.map f, (work.run at_).2) := by
  rw [run_bind]
  rcases work.run at_ with ⟨_ | _, _⟩ <;> rfl

variable (engine) in
/-- After taking the graph, a request does what is left to be done of its job. -/
theorem outcome_continue {r : Request} {job : Job} (hjob : r.job = .ok job) (s : Service) (e : σ) :
    let taken := (graph engine (job.asks = .reload)).run (s, e)
    let ran := (answer engine r).run (s, e)
    (job.continue taken.2.1.stopped taken.1).outcome? engine taken.2.2 = some (ran.1, ran.2.2) ∧
      ran.2.1 = taken.2.1 := by
  intro taken ran
  cases r with
  | projects =>
    cases hjob
    have hran : ran = (taken.1.map _, taken.2) := run_bind_pure (graph engine false) _ (s, e)
    clear_value ran taken
    subst hran
    rcases taken with ⟨f | g, s', e'⟩ <;> exact ⟨rfl, rfl⟩
  | refresh =>
    cases hjob
    have hran : ran = (taken.1.map _, taken.2) := run_bind_pure (graph engine true) _ (s, e)
    clear_value ran taken
    subst hran
    rcases taken with ⟨f | g, s', e'⟩ <;> exact ⟨rfl, rfl⟩
  | references t =>
    cases hfilter : t.filter with
    | error f =>
      rw [Request.job, hfilter] at hjob
      cases hjob
    | ok filter =>
      rw [Request.job, hfilter] at hjob
      cases hjob
      have hran : ran = (((references engine t).run (s, e)).1.map (rowsValue t.kind),
          ((references engine t).run (s, e)).2) := run_answer_references t s e
      have htaken : (graph engine false).run (s, e) = taken := rfl
      rw [run_references hfilter s e, htaken] at hran
      clear_value ran taken
      subst hran
      rcases taken with ⟨f | g, s', e'⟩
      · exact ⟨rfl, rfl⟩
      · dsimp only [Job.continue]
        cases s'.stopped with
        | true => exact ⟨rfl, rfl⟩
        | false => exact ⟨rfl, rfl⟩

/-- **Requests one after the other are a special case.** A request to a service between two requests
has the answer, and leaves the graph and the engine, as a task to which nothing else happens than
the load that it waits for. -/
theorem exists_run_answer {s : Service} (h : Between s) (e : σ) (r : Request) :
    let ran := (answer engine r).run (s, e)
    ∃ happenings calls call, (ofService s e).run engine (.start r :: happenings) =
      { session := { shared := ran.2.1.shared, calls }, engine := ran.2.2
        stopped := ran.2.1.stopped, tasks := [⟨r, call, .ended ran.1⟩] } := by
  intro ran
  cases hjob : r.job with
  | error f =>
    obtain ⟨t, rfl, hfilter⟩ : ∃ t, r = .references t ∧ t.filter = .error f := by
      cases r with
      | references t =>
        refine ⟨t, rfl, ?_⟩
        rw [Request.job] at hjob
        cases hfilter : t.filter with
        | error f' =>
          rw [hfilter] at hjob
          cases hjob
          rfl
        | ok filter =>
          rw [hfilter] at hjob
          cases hjob
      | _ => cases hjob
    refine ⟨[], [], none, ?_⟩
    have hran : ran = (.error f, s, e) := by
      show (answer engine (.references t)).run (s, e) = _
      rw [answer_of_error hfilter]
      rfl
    rw [hran, run, List.foldl_cons, step, start, hjob]
    rfl
  | ok job =>
    obtain ⟨houtcome, hservice⟩ := outcome_continue engine hjob s e
    obtain ⟨-, -, hstopped, -⟩ := run_graph engine h.idle e (job.asks = .reload)
    obtain ⟨events, captured, hcall⟩ :=
      exists_run_graph engine h.idle e (job.asks = .reload)
    rw [show (if (decide (job.asks = .reload)) = true then Sharing.Request.reload else .get) =
      job.asks by cases job <;> rfl] at hcall
    generalize (graph engine (job.asks = .reload)).run (s, e) = taken at *
    -- the request has taken the graph, or the failure of loading it
    let w : Traffic σ :=
      { session := { shared := taken.2.1.shared, calls := [⟨job.asks, .done taken.1, captured⟩] }
        engine := taken.2.2, stopped := s.stopped
        tasks := [⟨r, some 0, job.continue s.stopped taken.1⟩] }
    have htaken : (ofService s e).run engine
        (.start r :: (events.map .accessor ++ [.drift taken.2.2, .advance 0])) = w := by
      have hstart : (ofService s e).step engine (.start r) =
          { session := ({ shared := s.shared } : Session Graph).arrive job.asks, engine := e
            stopped := s.stopped, tasks := [⟨r, some 0, .asking job⟩] } := by
        rw [step, start, hjob]
        rfl
      rw [run, List.foldl_cons, hstart]
      show Traffic.run engine _ (events.map .accessor ++ _) = w
      rw [run_append, run_accessor, hcall]
      rfl
    rw [hstopped] at houtcome
    obtain ⟨k, hk⟩ := exists_run_advance (w := w) (i := 0) rfl houtcome
    refine ⟨events.map .accessor ++ [.drift taken.2.2, .advance 0] ++ List.replicate k (.advance 0),
      w.session.calls, some 0, ?_⟩
    have hservice' : ran.2.1 = taken.2.1 := hservice
    rw [hservice', hstopped, ← List.cons_append]
    refine (run_append _ _ _).trans ?_
    rw [htaken, hk]
    rfl

end Traffic

end

end Concordance.Service
