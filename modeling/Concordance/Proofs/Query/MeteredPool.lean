import Concordance.Proofs.Interruption
import Concordance.Proofs.Query.Pool
import Mathlib.Data.Nat.Find

/-!
# Looking into projects under a meter

Workers that look into projects at once look at one meter, each of them right before it looks into a
project. They do so in any order, so if the meter does not let all of these looks pass, chance
decides which projects are looked into. Not so what the lookups come to: everything that there is to
find if the meter allows a look for each project, and otherwise the failure of being called off.

The lookups fail once there is a failure and those of all earlier projects have found something.
Others may still be under way then, or not be started any more.

## Main definitions

* `MeteredPool`, `MeteredPool.Step`: lookups under way, and what can happen to them
* `MeteredPool.ComesTo`: what they come to
* `Lookup.GathersUnder`: what is gathered under a meter

## Main results

* `MeteredPool.sound_of_reaches`: the invariant
* `Lookup.GathersUnder.eq`: what is gathered depends on the meter only
-/

namespace Concordance.Query

/-- Lookups under way under a meter: how many have been started, those that have not ended, by their
places, and what the others came to. -/
structure MeteredPool where
  meter : Meter
  started : Nat := 0
  running : List Nat := []
  outcome : Nat → Option (Except Failure (List Symbol)) := fun _ => none

namespace MeteredPool

/-- What a lookup comes to that looks at a meter before. -/
def lookup (m : Meter) (typeName : String) (project : Project) : Except Failure (List Symbol) :=
  if m.passes then .ok (typesIn project typeName) else .error (.cancelled m.reason)

/-- What can happen: a worker that is free starts with the next project, or one looks at the meter,
and into its project if the look passes. -/
inductive Step (workers : Nat) (typeName : String) (projects : List Project) :
    MeteredPool → MeteredPool → Prop
  | start {p : MeteredPool} : p.started < projects.length → p.running.length < workers →
      Step workers typeName projects p
        { p with started := p.started + 1, running := p.started :: p.running }
  | finish {p : MeteredPool} {i : Nat} {project : Project} : i ∈ p.running →
      projects[i]? = some project → Step workers typeName projects p
        { p with
          meter := p.meter.after 1
          running := p.running.erase i
          outcome := Function.update p.outcome i (some (lookup p.meter typeName project)) }

/-- Any number of steps from the start. -/
def Reaches (workers : Nat) (typeName : String) (projects : List Project) (m : Meter)
    (p : MeteredPool) : Prop :=
  Relation.ReflTransGen (Step workers typeName projects) { meter := m } p

/-- What lookups into some number of projects come to: all that was found, or the failure of one
before which all have found something. -/
inductive ComesTo (p : MeteredPool) (projects : Nat) : Except Failure (List (List Symbol)) → Prop
  | found {found : List (List Symbol)} :
      found.map (fun types => some (.ok types)) = (List.range projects).map p.outcome →
      ComesTo p projects (.ok found)
  | failed {i : Nat} {e : Failure} : i < projects → p.outcome i = some (.error e) →
      (∀ j < i, ∃ types, p.outcome j = some (.ok types)) → ComesTo p projects (.error e)

variable {workers : Nat} {typeName : String} {projects : List Project} {m : Meter}
  {p p' : MeteredPool} {looked : Nat}

/-! ### The invariant -/

/-- After some looks at a meter: each lookup that has ended has found what there is to find, or was
called off because one of these looks did not pass. -/
structure Sound (typeName : String) (projects : List Project) (m : Meter) (looked : Nat)
    (p : MeteredPool) : Prop where
  meter : p.meter = m.after looked
  count : looked + p.running.length = p.started
  bound : p.started ≤ projects.length
  nodup : p.running.Nodup
  below : ∀ i ∈ p.running, i < p.started
  pending : ∀ i < p.started, i ∈ p.running ∨ ∃ r, p.outcome i = some r
  ended : ∀ i r, p.outcome i = some r → i < p.started ∧ i ∉ p.running ∧
    ((∃ project, projects[i]? = some project ∧ r = .ok (typesIn project typeName)) ∨
      r = .error (.cancelled m.reason) ∧ ¬ m.Allows looked)
  /-- A look that did not pass ended some lookup. -/
  failed : m.Allows looked ∨ ∃ i e, p.outcome i = some (.error e)

theorem Sound.start (h : Sound typeName projects m looked p)
    (hnext : p.started < projects.length) :
    Sound typeName projects m looked
      { p with started := p.started + 1, running := p.started :: p.running } where
  meter := h.meter
  count := by rw [List.length_cons, ← Nat.add_assoc, h.count]
  bound := hnext
  nodup := List.nodup_cons.mpr ⟨fun hmem => Nat.lt_irrefl _ (h.below _ hmem), h.nodup⟩
  below := by
    rintro i (_ | ⟨_, hi⟩)
    · exact Nat.lt_succ_self _
    · exact Nat.lt_succ_of_lt (h.below i hi)
  pending := by
    intro i hi
    rcases Nat.lt_succ_iff_lt_or_eq.mp hi with hi | rfl
    · exact (h.pending i hi).imp_left (List.mem_cons_of_mem _)
    · exact .inl List.mem_cons_self
  ended := by
    intro i r hr
    obtain ⟨hlt, hmem, hwhat⟩ := h.ended i r hr
    refine ⟨Nat.lt_succ_of_lt hlt, ?_, hwhat⟩
    rintro (_ | ⟨_, hi⟩)
    · exact Nat.lt_irrefl _ hlt
    · exact hmem hi
  failed := h.failed

theorem Sound.finish (h : Sound typeName projects m looked p) {i : Nat} {project : Project}
    (hi : i ∈ p.running) (hproject : projects[i]? = some project) :
    Sound typeName projects m (looked + 1)
      { p with
        meter := p.meter.after 1
        running := p.running.erase i
        outcome := Function.update p.outcome i (some (lookup p.meter typeName project)) } where
  meter := by rw [h.meter, Meter.after_after]
  count := by
    have hcount := h.count
    have hpos := List.length_pos_of_mem hi
    show looked + 1 + (p.running.erase i).length = p.started
    rw [List.length_erase_of_mem hi]
    omega
  bound := h.bound
  nodup := h.nodup.erase i
  below := fun j hj => h.below j (List.mem_of_mem_erase hj)
  pending := by
    intro j hj
    by_cases hji : j = i
    · subst hji
      exact .inr ⟨_, Function.update_self ..⟩
    · dsimp only
      rw [Function.update_of_ne hji, List.mem_erase_of_ne hji]
      exact h.pending j hj
  ended := by
    intro j r hr
    dsimp only at hr
    by_cases hji : j = i
    · subst hji
      rw [Function.update_self] at hr
      obtain rfl := Option.some.inj hr
      refine ⟨h.below j hi, h.nodup.not_mem_erase, ?_⟩
      rw [lookup, h.meter]
      split
      case isTrue hpasses => exact .inl ⟨project, hproject, rfl⟩
      case isFalse hstops =>
        refine .inr ⟨rfl, fun hallows => hstops ?_⟩
        exact Meter.allows_one.mp (Meter.allows_add.mp hallows).2
    · rw [Function.update_of_ne hji] at hr
      obtain ⟨hlt, hmem, hwhat⟩ := h.ended j r hr
      refine ⟨hlt, fun hj => hmem (List.mem_of_mem_erase hj), hwhat.imp_right ?_⟩
      exact And.imp_right fun hstops hallows => hstops (Meter.allows_add.mp hallows).1
  failed := by
    rcases h.failed with hallows | ⟨j, e, hj⟩
    · cases hpasses : (m.after looked).passes with
      | true => exact .inl (Meter.allows_add.mpr ⟨hallows, Meter.allows_one.mpr hpasses⟩)
      | false =>
        refine .inr ⟨i, .cancelled p.meter.reason, (Function.update_self ..).trans ?_⟩
        rw [lookup, h.meter, hpasses, if_neg Bool.false_ne_true]
    · -- a lookup that has ended is not running, so it is another one that ends now
      have hji : j ≠ i := fun hji => (h.ended j _ hj).2.1 (hji ▸ hi)
      exact .inr ⟨j, e, (Function.update_of_ne hji ..).trans hj⟩

theorem sound_of_reaches (h : Reaches workers typeName projects m p) :
    ∃ looked, Sound typeName projects m looked p := by
  induction h with
  | refl =>
    exact ⟨0, rfl, rfl, Nat.zero_le _, List.nodup_nil, nofun, nofun, nofun, .inl m.allows_zero⟩
  | tail _ hstep ih =>
    obtain ⟨looked, h⟩ := ih
    cases hstep with
    | start hnext hfree => exact ⟨looked, h.start hnext⟩
    | finish hrunning hproject => exact ⟨looked + 1, h.finish hrunning hproject⟩

/-! ### What lookups come to -/

/-- Where all lookups have ended there was a look for each project. -/
theorem Sound.looked_eq (h : Sound typeName projects m looked p)
    (hall : ∀ i < projects.length, ∃ r, p.outcome i = some r) : looked = projects.length := by
  have hrunning : p.running = [] := by
    refine List.eq_nil_iff_forall_not_mem.mpr fun i hi => ?_
    obtain ⟨r, hr⟩ := hall i (Nat.lt_of_lt_of_le (h.below i hi) h.bound)
    exact (h.ended i r hr).2.1 hi
  have hstarted : projects.length ≤ p.started := by
    refine Nat.le_of_not_lt fun hlt => ?_
    obtain ⟨r, hr⟩ := hall p.started hlt
    exact Nat.lt_irrefl _ (h.ended p.started r hr).1
  have hcount := h.count
  rw [hrunning, List.length_nil, Nat.add_zero] at hcount
  exact hcount.trans (Nat.le_antisymm h.bound hstarted)

/-- Lookups come to all there is to find, after a look for each of the projects, if the meter allows
that many, and to the failure of being called off if it does not. -/
theorem Sound.comesTo (h : Sound typeName projects m looked p)
    {r : Except Failure (List (List Symbol))} (hr : ComesTo p projects.length r) :
    (m.Allows projects.length ∧ r = .ok (projects.map fun project => typesIn project typeName) ∧
        p.meter = m.after projects.length) ∨
      ¬ m.Allows projects.length ∧ r = .error (.cancelled m.reason) := by
  cases hr with
  | @found found hfound =>
    have hlength : found.length = projects.length := by simpa using congrArg List.length hfound
    have houtcome : ∀ i (hi : i < found.length), p.outcome i = some (.ok found[i]) := by
      intro i hi
      have hi' := congrArg (fun l => l[i]?) hfound
      simpa [hi, hlength ▸ hi] using hi'.symm
    have hlooked := h.looked_eq fun i hi => ⟨_, houtcome i (hlength ▸ hi)⟩
    refine .inl ⟨?_, congrArg Except.ok (List.ext_getElem (by simpa using hlength) ?_),
      hlooked ▸ h.meter⟩
    · rw [← hlooked]
      refine h.failed.resolve_right ?_
      rintro ⟨i, e, hi⟩
      have hlt := Nat.lt_of_lt_of_le (h.ended i _ hi).1 h.bound
      rw [houtcome i (hlength ▸ hlt)] at hi
      cases hi
    · intro i hi hi'
      rcases (h.ended i _ (houtcome i hi)).2.2 with ⟨project, hproject, htypes⟩ | ⟨herror, -⟩
      · obtain ⟨hlt, rfl⟩ := List.getElem?_eq_some_iff.mp hproject
        rw [List.getElem_map]
        exact Except.ok.inj htypes
      · cases herror
  | @failed i e hi he hbefore =>
    refine .inr ?_
    rcases (h.ended i _ he).2.2 with ⟨_, _, hok⟩ | ⟨herror, hstops⟩
    · cases hok
    · refine ⟨fun hallows => hstops fun j hj => hallows j ?_, congrArg _ (Except.error.inj herror)⟩
      have hcount := h.count
      have hbound := h.bound
      omega

/-- One worker alone gets through the projects. -/
theorem exists_reaches (typeName : String) (m : Meter) (hworkers : 0 < workers) {n : Nat}
    (hn : n ≤ projects.length) :
    ∃ p, Reaches workers typeName projects m p ∧ p.started = n ∧ p.running = [] := by
  induction n with
  | zero => exact ⟨{ meter := m }, .refl, rfl, rfl⟩
  | succ n ih =>
    obtain ⟨p, hreaches, hstarted, hrunning⟩ := ih (by omega)
    have hlt : p.started < projects.length := by omega
    have hstart := hreaches.tail (.start hlt (by rw [hrunning]; exact hworkers))
    have hfinish := hstart.tail
      (.finish List.mem_cons_self (List.getElem?_eq_getElem hlt))
    exact ⟨_, hfinish, by rw [← hstarted], by simp [hrunning]⟩

/-- Once all lookups have ended they come to something. -/
theorem exists_comesTo {n : Nat} (hall : ∀ i < n, ∃ r, p.outcome i = some r) :
    ∃ r, ComesTo p n r := by
  by_cases hfailed : ∃ i, i < n ∧ ∃ e, p.outcome i = some (.error e)
  · classical
    obtain ⟨hi, e, he⟩ := Nat.find_spec hfailed
    refine ⟨.error e, .failed hi he fun j hj => ?_⟩
    obtain ⟨r, hr⟩ := hall j (Nat.lt_trans hj hi)
    cases r with
    | ok types => exact ⟨types, hr⟩
    | error f => exact absurd ⟨Nat.lt_trans hj hi, f, hr⟩ (Nat.find_min hfailed hj)
  · have hok : ∀ i < n, ∃ types, p.outcome i = some (.ok types) := by
      intro i hi
      obtain ⟨r, hr⟩ := hall i hi
      cases r with
      | ok types => exact ⟨types, hr⟩
      | error e => exact absurd ⟨i, hi, e, hr⟩ hfailed
    choose types htypes using hok
    refine ⟨.ok (List.ofFn fun i : Fin n => types i i.isLt), .found ?_⟩
    refine List.ext_getElem (by simp) fun i hi hi' => ?_
    have hlt : i < n := by simpa using hi
    simp [htypes i hlt]

end MeteredPool

namespace Lookup

/-- What lookups can come to under a meter, and what can be left of the meter then. -/
def GathersUnder (l : Lookup) (g : Graph) (typeName : String) (m : Meter)
    (r : Except Failure (List (List Symbol))) (m' : Meter) : Prop :=
  ∃ p, MeteredPool.Reaches (l.workersFor g.projects) typeName g.projects m p ∧
    p.ComesTo g.projects.length r ∧ p.meter = m'

/-- **What is gathered under a meter depends on the meter only**: whatever the number of workers
and in whatever order they look at it, it is all there is if the meter allows a look for each
project, and the failure of being called off if not. -/
theorem GathersUnder.eq {l : Lookup} {g : Graph} {typeName : String} {m m' : Meter}
    {r : Except Failure (List (List Symbol))} (h : l.GathersUnder g typeName m r m') :
    (m.Allows g.projects.length ∧
        r = .ok (g.projects.map fun project => typesIn project typeName) ∧
        m' = m.after g.projects.length) ∨
      ¬ m.Allows g.projects.length ∧ r = .error (.cancelled m.reason) := by
  obtain ⟨p, hreaches, hr, rfl⟩ := h
  obtain ⟨looked, hsound⟩ := MeteredPool.sound_of_reaches hreaches
  exact hsound.comesTo hr

/-- Workers get through the projects, or are called off, under any meter. -/
theorem exists_gathersUnder (l : Lookup) (g : Graph) (typeName : String) (m : Meter) :
    ∃ r m', l.GathersUnder g typeName m r m' := by
  by_cases hempty : g.projects = []
  · refine ⟨.ok [], m, { meter := m }, .refl, .found ?_, rfl⟩
    rw [hempty]
    rfl
  · obtain ⟨p, hreaches, hstarted, hrunning⟩ :=
      MeteredPool.exists_reaches typeName m (l.workersFor_pos hempty)
        (Nat.le_refl g.projects.length)
    obtain ⟨looked, hsound⟩ := MeteredPool.sound_of_reaches hreaches
    obtain ⟨r, hr⟩ := MeteredPool.exists_comesTo (n := g.projects.length) fun i hi =>
      (hsound.pending i (hstarted ▸ hi)).resolve_left (by simp [hrunning])
    exact ⟨r, p.meter, p, hreaches, hr, rfl⟩

end Lookup

end Concordance.Query
