import Concordance.Proofs.Query.Failing
import Concordance.Proofs.Sharing.Verdict
import Concordance.Service.Basic

/-!
# Which requests are refused

A request for references is refused for its arguments before anything else is done, and only then.
What is refused is said here in terms of the arguments themselves, as `FindCall.Refused`. A request
that is not refused fails only as the load of the graph or a search fails, or because the service
was shut down; in every other case it is answered by rows.

Requests come one after the other, so that between two of them every load has ended. That is what
`Shared.Idle` keeps, and with it that whoever asks is never told that arguments were refused for the
sake of an earlier load.

## Main definitions

* `Shared.Idle`: a shared value while no load is under way
* `FindCall`, `FindCall.Refused`: the requests for references, and those that are refused
* `Reachable`: the services that come from requests and from shutting down

## Main results

* `FindCall.filter_cases`: arguments pass their check unless the request is refused
* `Reachable.between`: what holds of a service between two requests
* `FindCall.answered_unless`: what comes of a request
-/

namespace Concordance

namespace Sharing

variable {α : Type}

/-! ### What a load can end with -/

/-- What those who wait for a load can be told: a value, that it cannot be loaded, or that the load
was called off. -/
def Conclusion (r : Except Failure α) : Prop :=
  ∀ f, r = .error f → (∃ text root, f = .load text root) ∨ ∃ reason, f = .cancelled reason

theorem Generation.conclusion_conclude (g : Generation α) (root : String) (limit : Option String)
    (result : Except Failure α) : Conclusion (g.conclude root limit result) := by
  intro f hf
  cases result with
  | ok a => cases hf
  | error e =>
    cases e with
    | cancelled reason =>
      rw [conclude] at hf
      split at hf
      · cases hf
        exact .inl ⟨_, root, rfl⟩
      · cases hf
        exact .inr ⟨reason, rfl⟩
    | load text place =>
      cases hf
      exact .inl ⟨text, place, rfl⟩
    | _ =>
      cases hf
      exact .inl ⟨_, root, rfl⟩

namespace Shared

/-! ### Between two requests -/

/-- A shared value while no load is under way. -/
structure Idle (s : Shared α) : Prop where
  sound : s.Sound
  settled : ∀ g ∈ s.generations, ∃ r, g.load = .settled r ∧ Conclusion r

theorem idle_of_ofRoot {root : String} {limit : Option String} {s : Shared α}
    (h : ofRoot root limit = .ok s) : s.Idle := by
  rw [ofRoot] at h
  split at h
  · cases h
  · cases h
    exact ⟨⟨trivial, trivial, rfl⟩, nofun⟩

/-- Nothing has to be called off at closing. -/
theorem Idle.close {s : Shared α} (h : s.Idle) : s.close.Idle := by
  have hrevoke : ∀ g ∈ s.generations, g.revoke = g := by
    intro g hg
    obtain ⟨r, hr, -⟩ := h.settled g hg
    rw [Generation.revoke, if_pos]
    rw [Generation.isSettled, Generation.outcome?, hr]
    rfl
  refine ⟨h.sound.advances (advances_close s), fun g hg => ?_⟩
  have hshut : s.shut.generations = s.generations := by
    rw [shut]
    split <;> rfl
  rw [Shared.close, revoke] at hg
  split at hg
  case h_2 => exact h.settled g (hshut ▸ hg)
  case h_1 n hn =>
    obtain ⟨g', hg', rfl⟩ := mem_modify.mp hg
    rw [hshut] at hg'
    split
    · rw [hrevoke g' hg']
      exact h.settled g' hg'
    · exact h.settled g' hg'

/-- The present generation has an outcome, if there is one. -/
theorem Idle.current_eq_none {s : Shared α} (h : s.Idle) (hsettled : s.settled? = none) :
    s.current = none := by
  cases hc : s.current with
  | none => rfl
  | some n =>
    obtain ⟨g, hg, rfl, -⟩ := h.sound.exists_of_current hc
    obtain ⟨r, hr, -⟩ := h.settled g hg
    have hfind : s.find? g.number = some g := h.sound.numbered.find?_eq hg
    rw [settled?, present?, hc, Option.bind_some, hfind, Option.bind_some, Generation.outcome?,
      hr] at hsettled
    cases hsettled

theorem Idle.conclusion_of_settled {s : Shared α} (h : s.Idle) {r : Except Failure α}
    (hr : s.settled? = some r) : Conclusion r := by
  obtain ⟨g, hg, hr⟩ := Option.bind_eq_some_iff.mp hr
  obtain ⟨n, -, hg⟩ := Option.bind_eq_some_iff.mp hg
  obtain ⟨r', hr', hconclusion⟩ := h.settled g (mem_of_find? hg).1
  rw [Generation.outcome?, hr'] at hr
  cases hr
  exact hconclusion

/-- Changing the latest generation leaves the others as they are. -/
theorem modify_head {s : Shared α} {g : Generation α} {rest : List (Generation α)}
    (h : s.generations = g :: rest) (hn : Numbered s.generations)
    (f : Generation α → Generation α) :
    s.modify g.number f = { s with generations := f g :: rest } := by
  rw [h] at hn
  have hrest : rest.map (fun x => if x.number = g.number then f x else x) = rest := by
    refine (List.map_congr_left fun x hx => ?_).trans (List.map_id' rest)
    have hle := hn.2.le_length hx
    have hg := hn.1
    exact if_neg (by omega)
  rw [modify, h, List.map_cons, if_pos rfl, hrest]

/-- Asked while no load is under way, a shared value answers, refuses because it is closed, or
starts a load. -/
theorem Idle.ask_cases {s : Shared α} (h : s.Idle) (again : Bool) :
    (∃ r, (if again then s.reload else s.get) = .ok (.outcome r, s) ∧ Conclusion r) ∨
      (s.closed = true ∧ (if again then s.reload else s.get) = .error closedFailure) ∨
      ∃ n s', s.wait none = .ok (n, s') ∧
        (if again then s.reload else s.get) = .ok (.waiting n, s') := by
  have hwait : (s.closed = true ∧ s.reload = .error closedFailure) ∨
      ∃ n s', s.wait none = .ok (n, s') ∧ s.reload = .ok (.waiting n, s') := by
    rw [reload]
    cases hw : s.wait none with
    | ok waited => exact .inr ⟨waited.1, waited.2, rfl, rfl⟩
    | error f =>
      cases hc : s.closed with
      | false => simp [wait, hc] at hw
      | true =>
        obtain rfl : closedFailure = f := by simpa [wait, hc] using hw
        exact .inl ⟨rfl, rfl⟩
  cases again with
  | true => exact .inr hwait
  | false =>
    rw [if_neg (by decide), get]
    cases hr : s.settled? with
    | some r => exact .inl ⟨r, rfl, h.conclusion_of_settled hr⟩
    | none =>
      rw [h.current_eq_none hr]
      exact .inr hwait

/-- The only load that has not begun is the next one. -/
theorem Idle.next?_eq {s s' : Shared α} (h : s.Idle) {g : Generation α}
    (hs' : s'.generations = g :: s.generations) (hg : g.load = .queued) :
    s'.next? = some g.number := by
  have hsettled : ∀ g ∈ s.generations, g.isRunning = false ∧ g.isQueued = false := by
    intro g hg
    obtain ⟨r, hr, -⟩ := h.settled g hg
    rw [Generation.isRunning, Generation.isQueued, hr]
    exact ⟨rfl, rfl⟩
  have hrunning : s'.running = 0 := by
    rw [running, hs', List.countP_eq_zero]
    intro x hx
    rcases List.mem_cons.mp hx with rfl | hx
    · simp [Generation.isRunning, hg]
    · simp [(hsettled x hx).1]
  have hothers : s.generations.reverse.find? Generation.isQueued = none := by
    rw [List.find?_eq_none]
    intro x hx
    simp [(hsettled x (List.mem_reverse.mp hx)).2]
  have hqueued : g.isQueued = true := by rw [Generation.isQueued, hg]
  rw [next?, hrunning, if_pos (by decide), hs', List.reverse_cons, List.find?_append, hothers,
    Option.none_or, List.find?_cons_of_pos hqueued, Option.map_some]

/-- A load that is asked for while none is under way begins at once, and with its result it has
ended. -/
theorem Idle.load {s s' : Shared α} (h : s.Idle) {n : Nat} (hw : s.wait none = .ok (n, s'))
    (result : Except Failure α) :
    ((s'.begin.finish n result).release n false).Idle ∧
      ∃ r, (s'.begin.finish n result).outcome? n = some r ∧ Conclusion r := by
  have hwaited : s'.Sound := h.sound.wait hw
  have hbegun : s'.begin.Sound := hwaited.advances (advances_begin s')
  have hfinished : (s'.begin.finish n result).Sound :=
    hbegun.advances (advances_finish _ n result)
  obtain ⟨-, ⟨hne, -⟩ | ⟨-, hn, hs'⟩⟩ := wait_eq_ok hw
  · cases hne
  · -- The new generation, while it waits, while it is under way, and when it has ended.
    let g₀ : Generation α := { number := n, previous := s.current, waiters := 1 }
    let g₁ : Generation α := { g₀ with load := .running }
    have hgens₀ : s'.generations = g₀ :: s.generations := by
      subst hn
      rw [hs', attach, modify_head (g := { number := _, previous := s.current }) rfl
        h.sound.start.numbered]
      rfl
    have hgens₁ : s'.begin.generations = g₁ :: s.generations := by
      rw [begin, h.next?_eq hgens₀ rfl]
      dsimp only
      rw [launch, modify_head hgens₀ hwaited.numbered]
      rfl
    let g₂ : Generation α := g₁.finish s'.begin.root s'.begin.limit result
    have hgens₂ : (s'.begin.finish n result).generations = g₂ :: s.generations := by
      rw [finish, show n = g₁.number from rfl, modify_head hgens₁ hbegun.numbered]
    have hgens₃ : ((s'.begin.finish n result).release n false).generations =
        g₂.leave :: s.generations := by
      rw [generations_release hfinished.numbered]
      exact congrArg generations (modify_head hgens₂ hfinished.numbered fun g => g.left false)
    have hload : g₂.load = .settled (g₁.conclude s'.begin.root s'.begin.limit result) := rfl
    have hconclusion := g₁.conclusion_conclude s'.begin.root s'.begin.limit result
    refine ⟨⟨hfinished.release n false, fun g hg => ?_⟩, _, ?_, hconclusion⟩
    · rw [hgens₃] at hg
      rcases List.mem_cons.mp hg with rfl | hg
      · exact ⟨_, hload, hconclusion⟩
      · exact h.settled g hg
    · have hmem : g₂ ∈ (s'.begin.finish n result).generations := by
        rw [hgens₂]
        exact List.mem_cons_self
      exact outcome?_eq hfinished.numbered hmem

end Shared

end Sharing

namespace Service

open Sharing

variable {σ : Type} {engine : Engine σ}

/-! ### Work of the service -/

theorem run_bind {α β : Type} (work : Work σ α) (f : α → Work σ β) (at_ : Service × σ) :
    (work >>= f).run at_ =
      match work.run at_ with
      | (.ok a, left) => (f a).run left
      | (.error e, left) => (.error e, left) := by
  show ExceptT.bindCont f (work.run at_).1 (work.run at_).2 = _
  rcases work.run at_ with ⟨_ | _, _⟩ <;> rfl

/-- Handing on the outcome of a load. -/
theorem run_handOn (outcome : Option (Except Failure Graph)) (at_ : Service × σ) :
    (match outcome with
      | some (.ok g) => pure g
      | some (.error f) => throw f
      | none => throw (.state "") : Work σ Graph).run at_ =
    (match outcome with
      | some r => r
      | none => .error (.state ""), at_) := by
  rcases outcome with _ | _ | _ <;> rfl

/-- Loading a generation that a request waits for. -/
theorem run_await (s : Service) (e : σ) (n : Nat) :
    (await engine n).run (s, e) =
      let ran := (engine.load s.shared.root).runFrom {} e
      let shared := s.shared.begin.finish n ran.1
      ((match shared.outcome? n with
        | some r => r
        | none => .error (.state "")), { s with shared := shared.release n false }, ran.2.2) :=
  run_handOn _ _

variable (engine) in
/-- Taking the graph asks for it, and does what the answer says. -/
theorem run_graph_eq (s : Service) (e : σ) (again : Bool) :
    (graph engine again).run (s, e) =
      (match if again then s.shared.reload else s.shared.get with
        | .error f => throw f
        | .ok (.outcome (.ok g), _) => pure g
        | .ok (.outcome (.error f), _) => throw f
        | .ok (.waiting n, shared) => do
          setShared shared
          await engine n : Work σ Graph).run (s, e) :=
  rfl

variable (engine) in
/-- Taking the graph leaves the service idle, and as it is but for the graph. It fails as a load
does, or because the service is closed. -/
theorem run_graph {s : Service} (h : s.shared.Idle) (e : σ) (again : Bool) :
    let ran := (graph engine again).run (s, e)
    ran.2.1.shared.Idle ∧ ran.2.1.shared.closed = s.shared.closed ∧ ran.2.1.stopped = s.stopped ∧
      (Conclusion ran.1 ∨ s.shared.closed = true ∧ ran.1 = .error Shared.closedFailure) := by
  intro ran
  have hran : ran = _ := run_graph_eq engine s e again
  rcases h.ask_cases again with ⟨r, hasked, hr⟩ | ⟨hclosed, hasked⟩ | ⟨n, shared, hw, hasked⟩
  · rw [hasked] at hran
    cases r with
    | ok g =>
      rw [hran]
      exact ⟨h, rfl, rfl, .inl hr⟩
    | error f =>
      rw [hran]
      exact ⟨h, rfl, rfl, .inl hr⟩
  · rw [hasked] at hran
    rw [hran]
    exact ⟨h, rfl, rfl, .inr ⟨hclosed, rfl⟩⟩
  · rw [hasked] at hran
    have hawait : ran = (await engine n).run ({ s with shared }, e) := hran
    rw [run_await] at hawait
    obtain ⟨hidle, r, hr, hconclusion⟩ := h.load hw ((engine.load shared.root).runFrom {} e).1
    dsimp only at hawait
    rw [hr] at hawait
    rw [hawait]
    have hbegin : shared.begin.closed = shared.closed := by
      rw [Shared.begin]
      split <;> rfl
    have hwait : shared.closed = s.shared.closed := by
      obtain ⟨-, ⟨-, rfl⟩ | ⟨-, -, rfl⟩⟩ := Shared.wait_eq_ok hw
      · rfl
      · rfl
    exact ⟨hidle, (Shared.closed_release _ n false).1.trans (hbegin.trans hwait), rfl,
      .inl hconclusion⟩

/-- Asking for the references to a target whose arguments pass their check: the graph is taken, and
unless the service was shut down the query runs on it. -/
theorem run_references {t : Target} {filter : Query.Filter} (hfilter : t.filter = .ok filter)
    (s : Service) (e : σ) :
    (references engine t).run (s, e) =
      match (graph engine false).run (s, e) with
      | (.error f, left) => (.error f, left)
      | (.ok g, s', e') =>
        if s'.stopped then (.error (.state "cannot schedule new futures after shutdown"), s', e')
        else
          let ran := (Query.answer engine.search g filter t.kind).runFrom {} e'
          (ran.1, s', ran.2.2) := by
  have hengine : ∀ (work : Metered σ (List Row)) (s : Service) (e : σ),
      (engineWork work).run (s, e) = (.ok (work.runFrom {} e).1, s, (work.runFrom {} e).2.2) :=
    fun _ _ _ => rfl
  rw [references, hfilter]
  dsimp only
  rw [run_bind]
  rcases (graph engine false).run (s, e) with ⟨f | g, s', e'⟩
  · rfl
  · show ExceptT.run (if s'.stopped then _ else _ : Work σ (List Row)) (s', e') = _
    dsimp only
    split
    · rfl
    · rw [run_bind, hengine]
      rcases (Query.answer engine.search g filter t.kind).runFrom {} e' with ⟨_ | _, _⟩ <;> rfl

/-! ### Requests for references -/

/-- A request for the references to types, or to the properties, methods or fields of types. Members
have to be named; properties can be asked for by their accessors. -/
inductive FindCall where
  | types (typeName home : Option String)
  | properties (typeName : Option String) (name : String) (home accessors : Option String)
  | methods (typeName : Option String) (name : String) (home : Option String)
  | fields (typeName : Option String) (name : String) (home : Option String)

namespace FindCall

/-- What a request asks for. -/
def target : FindCall → Target
  | types typeName home => { typeName, home }
  | properties typeName name home accessors =>
    { kind := some .property, typeName, home, memberName := some name, accessors }
  | methods typeName name home =>
    { kind := some .method, typeName, home, memberName := some name }
  | fields typeName name home =>
    { kind := some .field, typeName, home, memberName := some name }

/-- Whether a type name is missing or blank. -/
def NoTypeName (typeName : Option String) : Prop :=
  ∀ name ∈ typeName, Text.isBlankText name = true

/-- Whether an accessor token means nothing: it is not blank, and it is no known one after its outer
blanks are dropped and it is lowered. -/
def UnknownToken (token : Option String) : Prop :=
  ∃ t ∈ token, Text.isBlankText t = false ∧
    Text.lower (Text.strip t) ∉ ["get", "set", "both"]

/-- The requests that are refused: without a type name, for members of a blank name, or for
accessors by a token that means nothing. -/
def Refused : FindCall → Prop
  | types typeName _ => NoTypeName typeName
  | properties typeName name _ accessors =>
    NoTypeName typeName ∨ Text.isBlankText name = true ∨ UnknownToken accessors
  | methods typeName name _ => NoTypeName typeName ∨ Text.isBlankText name = true
  | fields typeName name _ => NoTypeName typeName ∨ Text.isBlankText name = true

end FindCall

theorem ofName?_eq_none_iff (name : String) :
    AccessorSelection.ofName? name = none ↔ name ∉ ["get", "set", "both"] := by
  have hnames : ["get", "set", "both"] = [AccessorSelection.get, .set, .both].map (·.name) := rfl
  rw [hnames, AccessorSelection.ofName?, List.find?_eq_none, List.mem_map, not_exists]
  refine forall_congr' fun a => ?_
  rw [not_and, beq_iff_eq]

/-- A token is read unless it means nothing; then the failure tells the token. -/
theorem parse_cases (token : Option String) :
    (FindCall.UnknownToken token ∧
        ∃ text, AccessorSelection.parse token = .error (.argument text "accessor_type" token)) ∨
      ¬ FindCall.UnknownToken token ∧ ∃ a, AccessorSelection.parse token = .ok a := by
  cases token with
  | none => exact .inr ⟨nofun, .both, rfl⟩
  | some t =>
    rw [AccessorSelection.parse]
    cases hblank : Text.isBlankText t with
    | true =>
      refine .inr ⟨?_, .both, rfl⟩
      rintro ⟨t', ht', hblank', -⟩
      cases ht'
      rw [hblank] at hblank'
      cases hblank'
    | false =>
      rw [if_neg (by decide)]
      cases hname : AccessorSelection.ofName? (Text.lower (Text.strip t)) with
      | none => exact .inl ⟨⟨t, rfl, hblank, (ofName?_eq_none_iff _).mp hname⟩, _, rfl⟩
      | some a =>
        refine .inr ⟨?_, a, rfl⟩
        rintro ⟨t', ht', -, hunknown⟩
        cases ht'
        rw [(ofName?_eq_none_iff _).mpr hunknown] at hname
        cases hname

/-- With a known selection of accessors, arguments pass their check unless there is no type name or
a blank member name; then the failure tells which. -/
theorem check_cases (typeName home memberName : Option String) (selection : AccessorSelection) :
    let checked := Query.Filter.check typeName home memberName (some selection.name)
    (FindCall.NoTypeName typeName ∧
        ∃ text, checked = .error (.argument text "type_name" typeName)) ∨
      ((∃ name ∈ memberName, Text.isBlankText name = true) ∧
        ∃ text, checked = .error (.argument text "member_name" memberName)) ∨
      ¬ FindCall.NoTypeName typeName ∧ (∀ name ∈ memberName, Text.isBlankText name = false) ∧
        ∃ f, checked = .ok f := by
  intro checked
  have hchecked : checked = Query.Filter.check typeName home memberName (some selection.name) := rfl
  rw [Query.Filter.check.eq_def] at hchecked
  cases typeName with
  | none =>
    refine .inl ⟨?_, _, hchecked⟩
    rintro _ ⟨⟩
  | some t =>
    cases ht : Text.isBlankText t with
    | true =>
      dsimp only at hchecked
      rw [ht] at hchecked
      refine .inl ⟨?_, _, hchecked⟩
      rintro _ ⟨⟩
      exact ht
    | false =>
      have hgiven : ¬ FindCall.NoTypeName (some t) := by
        intro hnone
        rw [hnone t rfl] at ht
        cases ht
      dsimp only at hchecked
      rw [ht, if_neg (by decide), Query.parse_name] at hchecked
      cases memberName with
      | none => exact .inr (.inr ⟨hgiven, by rintro _ ⟨⟩, _, hchecked⟩)
      | some m =>
        dsimp only at hchecked
        cases hm : Text.isBlankText m with
        | true =>
          rw [hm] at hchecked
          exact .inr (.inl ⟨⟨m, rfl, hm⟩, _, hchecked⟩)
        | false =>
          rw [hm] at hchecked
          refine .inr (.inr ⟨hgiven, ?_, _, hchecked⟩)
          rintro _ ⟨⟩
          exact hm

namespace FindCall

/-- The arguments that are checked, by their names. -/
def given (c : FindCall) : List (String × Option String) :=
  [("type_name", c.target.typeName), ("member_name", c.target.memberName),
    ("accessor_type", c.target.accessors)]

theorem refused_iff (c : FindCall) :
    c.Refused ↔ NoTypeName c.target.typeName ∨
      (∃ name ∈ c.target.memberName, Text.isBlankText name = true) ∨
        UnknownToken c.target.accessors := by
  have hnone : ¬ UnknownToken none := by
    rintro ⟨_, ⟨⟩, _⟩
  cases c <;> simp [Refused, target, hnone]

/-- The arguments of a request pass their check unless it is refused; then the failure tells one of
the arguments with its value. -/
theorem filter_cases (c : FindCall) :
    (c.Refused ∧ ∃ text argument value, (argument, value) ∈ c.given ∧
        c.target.filter = .error (.argument text argument value)) ∨
      ¬ c.Refused ∧ ∃ f, c.target.filter = .ok f ∧ f.Valid c.target.kind := by
  have hmember : c.target.kind.isSome → c.target.memberName.isSome := by
    cases c <;> simp [target]
  rw [refused_iff, Target.filter, Query.Filter.create]
  rcases parse_cases c.target.accessors with ⟨hunknown, text, hparse⟩ | ⟨hknown, a, hparse⟩
  · rw [hparse]
    exact .inl ⟨.inr (.inr hunknown), text, "accessor_type", _, by simp [given], rfl⟩
  · rw [hparse]
    rcases check_cases c.target.typeName (c.target.home.filter (· ≠ "")) c.target.memberName a with
      ⟨hnone, text, hcheck⟩ | ⟨hblank, text, hcheck⟩ | ⟨hgiven, hname, f, hcheck⟩
    · exact .inl ⟨.inl hnone, text, "type_name", _, by simp [given], hcheck⟩
    · exact .inl ⟨.inr (.inl hblank), text, "member_name", _, by simp [given], hcheck⟩
    · refine .inr ⟨?_, f, hcheck, Query.Filter.valid_of_check hcheck hmember⟩
      rintro (hnone | ⟨name, hmem, hblank⟩ | hunknown)
      · exact hgiven hnone
      · rw [hname name hmem] at hblank
        cases hblank
      · exact hknown hunknown

end FindCall

/-! ### Services between requests -/

/-- The services that come from settings and a root, by requests, loads and shutting down. The state
of the engine may have become any between them. -/
inductive Reachable (engine : Engine σ) : Service → Prop
  | opened {settings : Settings} {root : String} {s : Service} :
      ofSettings settings root = .ok s → Reachable engine s
  | loaded {s : Service} (e : σ) (again : Bool) :
      Reachable engine s → Reachable engine ((graph engine again).run (s, e)).2.1
  | answered {s : Service} (e : σ) (r : Request) :
      Reachable engine s → Reachable engine ((answer engine r).run (s, e)).2.1
  | shutDown {s : Service} : Reachable engine s → Reachable engine s.shutDown

/-- A service between two requests: no load is under way, and the graph is closed just if the
service was shut down. -/
structure Between (s : Service) : Prop where
  idle : s.shared.Idle
  closed : s.shared.closed = s.stopped

theorem Between.graph {s : Service} (h : Between s) (e : σ) (again : Bool) :
    Between ((graph engine again).run (s, e)).2.1 := by
  obtain ⟨hidle, hclosed, hstopped, -⟩ := run_graph engine h.idle e again
  exact ⟨hidle, hclosed.trans (h.closed.trans hstopped.symm)⟩

/-- Arguments that do not pass their check are all that is looked at. -/
theorem answer_of_error {t : Target} {f : Failure} (hfilter : t.filter = .error f) :
    answer engine (.references t) = throw f := by
  rw [answer, references, hfilter]
  rfl

/-- References are answered by their rows. -/
theorem run_answer_references (t : Target) (s : Service) (e : σ) :
    (answer engine (.references t)).run (s, e) =
      let ran := (references engine t).run (s, e)
      (ran.1.map fun rows => .array (rows.map (rowValue (symbolColumn t.kind))), ran.2) := by
  rw [answer, run_bind]
  rcases (references engine t).run (s, e) with ⟨_ | _, _⟩ <;> rfl

variable (engine) in
/-- A request leaves the service as taking the graph leaves it, or as it was. -/
theorem service_answer (s : Service) (e : σ) (r : Request) :
    ((answer engine r).run (s, e)).2.1 = s ∨
      ∃ again, ((answer engine r).run (s, e)).2.1 = ((graph engine again).run (s, e)).2.1 := by
  cases r with
  | projects =>
    refine .inr ⟨false, ?_⟩
    rw [answer, run_bind]
    rcases (graph engine false).run (s, e) with ⟨_ | _, _⟩ <;> rfl
  | refresh =>
    refine .inr ⟨true, ?_⟩
    rw [answer, run_bind]
    rcases (graph engine true).run (s, e) with ⟨_ | _, _⟩ <;> rfl
  | references t =>
    cases hfilter : t.filter with
    | error f =>
      rw [answer_of_error hfilter]
      exact .inl rfl
    | ok filter =>
      refine .inr ⟨false, ?_⟩
      rw [run_answer_references, run_references hfilter]
      rcases (graph engine false).run (s, e) with ⟨_ | _, s', e'⟩
      · rfl
      · dsimp only
        split <;> rfl

theorem Reachable.between {s : Service} (h : Reachable engine s) : Between s := by
  induction h with
  | @opened settings root s hopened =>
    obtain ⟨shared, hshared, rfl⟩ : ∃ shared,
        Shared.ofRoot root (some (toString settings.loadTimeout)) = .ok shared ∧
          { settings, shared } = s := by
      rw [ofSettings] at hopened
      cases hshared : Shared.ofRoot root (some (toString settings.loadTimeout)) with
      | error f =>
        rw [hshared] at hopened
        cases hopened
      | ok shared =>
        rw [hshared] at hopened
        cases hopened
        exact ⟨shared, rfl, rfl⟩
    refine ⟨Shared.idle_of_ofRoot hshared, ?_⟩
    rw [Shared.ofRoot] at hshared
    split at hshared
    · cases hshared
    · cases hshared
      rfl
  | loaded e again _ ih => exact ih.graph e again
  | answered e r _ ih =>
    rcases service_answer engine _ e r with hsame | ⟨again, htaken⟩
    · exact hsame ▸ ih
    · exact htaken ▸ ih.graph e again
  | shutDown _ ih =>
    refine ⟨ih.idle.close, ?_⟩
    rw [Service.shutDown, Shared.close, Shared.revoke, Shared.shut]
    split <;> split <;> first | rfl | assumption

/-! ### What comes of a request -/

/-- The searches of an engine set no limit to the looks at the meter they are given. -/
def LeavesMeter (engine : Engine σ) : Prop :=
  ∀ g s m e, m.limit = none → ((engine.search g s).runFrom m e).2.1.limit = none

namespace FindCall

/-- **Arguments are checked once and first.** In a service between two requests, a request for
references whose arguments are refused does nothing but fail with one of them. Any other passes
every later check: on no graph and however it is called off, its query fails but for being called
off or as a search fails. If nothing calls it off, it is answered by a list of rows, unless the
graph could not be loaded, a search failed or the service was shut down. -/
theorem answered_unless (hsearch : LeavesMeter engine) {s : Service} (hs : Reachable engine s)
    (e : σ) (c : FindCall) :
    (c.Refused → ∃ text argument value, (argument, value) ∈ c.given ∧
      answer engine (.references c.target) = throw (.argument text argument value)) ∧
    (¬ c.Refused → ∃ filter, c.target.filter = .ok filter ∧
      (∀ g m e failure,
        ((Query.answer engine.search g filter c.target.kind).runFrom m e).1 = .error failure →
          (∃ reason, failure = .cancelled reason) ∨
            ∃ s m e, ((engine.search g s).runFrom m e).1 = .error failure) ∧
      ((∃ rows, ((answer engine (.references c.target)).run (s, e)).1 = .ok (.array rows)) ∨
        ∃ failure, ((answer engine (.references c.target)).run (s, e)).1 = .error failure ∧
          ((((graph engine false).run (s, e)).1 = .error failure ∧
              ((∃ text root, failure = .load text root) ∨ ∃ reason, failure = .cancelled reason)) ∨
            (∃ g, ((graph engine false).run (s, e)).1 = .ok g ∧
              ∃ s ∈ Query.symbolsNamed g filter c.target.kind, ∃ m e, m.limit = none ∧
                ((engine.search g s).runFrom m e).1 = .error failure) ∨
            s.stopped = true ∧ ∃ text, failure = .state text))) := by
  have hbetween := hs.between
  obtain ⟨-, -, hstopped, hgraph⟩ := run_graph engine hbetween.idle e false
  rcases c.filter_cases with ⟨hrefused, text, argument, value, hgiven, hfilter⟩ |
    ⟨hrefused, filter, hfilter, hvalid⟩
  · exact ⟨fun _ => ⟨text, argument, value, hgiven, answer_of_error hfilter⟩,
      fun h => absurd hrefused h⟩
  · refine ⟨fun h => absurd h hrefused, fun _ => ⟨filter, hfilter, ?_, ?_⟩⟩
    · intro g m e failure hfailure
      refine (Query.answer_error hvalid hfailure).imp_right ?_
      rintro ⟨s, -, m', e', hfails⟩
      exact ⟨s, m', e', hfails⟩
    · rw [run_answer_references, run_references hfilter]
      rcases hran : (graph engine false).run (s, e) with ⟨f | g, s', e'⟩
      · rw [hran] at hgraph
        refine .inr ⟨f, rfl, ?_⟩
        rcases hgraph with hconclusion | ⟨hclosed, hrefusal⟩
        · exact .inl ⟨rfl, hconclusion f rfl⟩
        · cases hrefusal
          exact .inr (.inr ⟨hbetween.closed ▸ hclosed, _, rfl⟩)
      · rw [hran] at hstopped
        dsimp only at hstopped ⊢
        split
        case isTrue hstop =>
          exact .inr ⟨_, rfl, .inr (.inr ⟨hstopped ▸ hstop, _, rfl⟩)⟩
        case isFalse =>
          cases hanswer : ((Query.answer engine.search g filter c.target.kind).runFrom {} e').1 with
          | ok rows => exact .inl ⟨_, rfl⟩
          | error failure =>
            have hfails := Query.answer_error_uncalled hvalid (hsearch g) rfl hanswer
            exact .inr ⟨failure, rfl, .inr (.inl ⟨g, rfl, hfails⟩)⟩

end FindCall

/-! ### A small service -/

/-- An engine that loads one graph and searches in its indices. -/
def shelf : Engine Unit := { load := fun _ => pure Query.workshop, search := Query.indexed }

/-- A service that nothing was asked of. -/
def shop : Service :=
  { settings := {}
    shared := { root := "/ws", limit := some (toString ({} : Settings).loadTimeout) } }

theorem leavesMeter_shelf : LeavesMeter shelf := fun g s m e hm =>
  (Query.finds_indexed g s m e hm).2

theorem reachable_shop : Reachable shelf shop := @Reachable.opened _ shelf {} "/ws" shop rfl

namespace FindCall

/-- A token with blanks and capitals is a known one, so the setters are asked for and found; a token
that means nothing is refused. -/
theorem answered_unless_shop :
    let refused := properties (some "node") "size" none (some "getter")
    let accepted := properties (some "node") "size" none (some " SET ")
    LeavesMeter shelf ∧ Reachable shelf shop ∧
      (∃ text argument value, answer shelf (.references refused.target) =
        throw (.argument text argument value)) ∧
      ∃ rows, ((answer shelf (.references accepted.target)).run (shop, ())).1 =
        .ok (.array rows) := by
  intro refused accepted
  refine ⟨leavesMeter_shelf, reachable_shop, ?_, ?_⟩
  · have hrefused : refused.Refused := by
      refine .inr (.inr ⟨"getter", rfl, ?_, ?_⟩)
      · decide +kernel
      · decide +kernel
    obtain ⟨text, argument, value, -, hthrow⟩ :=
      (answered_unless leavesMeter_shelf reachable_shop () refused).1 hrefused
    exact ⟨text, argument, value, hthrow⟩
  · have haccepted : ¬ accepted.Refused := by
      rintro (hnone | hblank | ⟨t, ht, -, hunknown⟩)
      · have hblank := hnone "node" rfl
        revert hblank
        decide +kernel
      · revert hblank
        decide +kernel
      · cases ht
        revert hunknown
        decide +kernel
    obtain ⟨filter, -, -, hrows | ⟨failure, -, hfails⟩⟩ :=
      (answered_unless leavesMeter_shelf reachable_shop () accepted).2 haccepted
    · exact hrows
    · rcases hfails with ⟨hload, -⟩ | ⟨g, -, s, -, m, e, hm, hsearch⟩ | ⟨hstopped, -⟩
      · cases hload
      · rw [show shelf.search = Query.indexed from rfl,
          (Query.finds_indexed g s m e hm).1] at hsearch
        cases hsearch
      · cases hstopped

/-- After shutting down, requests are not answered by rows any more, even if the graph is there and
no search can fail. -/
theorem not_answered_after_shutDown :
    let s := ((graph shelf false).run (shop, ())).2.1.shutDown
    let c := types (some "node") none
    Reachable shelf s ∧ ¬ c.Refused ∧ ((graph shelf false).run (s, ())).1 = .ok Query.workshop ∧
      (∀ g s m e, m.limit = none → ∃ found, ((shelf.search g s).runFrom m e).1 = .ok found) ∧
      ((answer shelf (.references c.target)).run (s, ())).1 =
        .error (.state "cannot schedule new futures after shutdown") := by
  intro s c
  have hfilter : c.target.filter = .ok { typeName := "node" } := by decide +kernel
  refine ⟨(reachable_shop.loaded () false).shutDown, fun hrefused => ?_, rfl,
    fun g s m e hm => ⟨_, (Query.finds_indexed g s m e hm).1⟩, ?_⟩
  · have hblank := hrefused "node" rfl
    revert hblank
    decide +kernel
  · rw [run_answer_references, run_references hfilter]
    rfl

end FindCall

end Service

end Concordance
