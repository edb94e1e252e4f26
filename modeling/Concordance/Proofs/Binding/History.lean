import Concordance.Proofs.Binding.Settling

/-!
# Whatever was asked before

A codebase is asked many questions of many kinds, in any order, and some of them before all base
classes have been found. All answers kept in the meantime are used for later questions. A name whose
answer is known has the same binding after all that as when it is asked for first.

This is all that can be said: for names that lead back to themselves the binding does depend on what
was asked first, as `Environment.export_depends_on_history` shows for two modules that import one
name from each other.

## Main definitions

* `Query`, `Event`: what can be asked, and what can happen
* `Query.askWith`: something that is asked when questions are answered in a given way
* `Environment`, `Environment.run`: a codebase with the answers kept, and how it goes on

## Main results

* `Sequential.askWith`: what is asked is related if the answers to questions are
* `Environment.exists_run_resolveBases`: finding all base classes is a run
* `Environment.export_eq_of_settles`: a known answer does not depend on what was asked before
-/

namespace Concordance.Binding

/-! ### Environments -/

/-- How the names in an expression are looked up: each has a binding of its own there, or is asked
for in a module. -/
abbrev Names := String → Nat × String ⊕ Option Denotation

/-- The lookup of names. -/
def Names.lookup (names : Names) (q : Questions) : Lookup := fun id =>
  match names id with
  | .inl (m, name) => q.exported m name
  | .inr b => pure b

/-- What can be asked of a codebase. -/
inductive Query where
  | exported (m : Nat) (name : String)
  | importFrom (project : Option String) (target name : String)
  | expression (names : Names) (enclosing : Option ClassId) (n : Syntax.Node)
  | hint (names : Names) (n : Syntax.Node)
  | member (b : Denotation) (attr : String)

/-- Ask something of a codebase. -/
def Query.ask (c : Codebase) : Query → Resolve (Option Denotation)
  | .exported m name => c.ask.exported m name
  | .importFrom project target name => some <$> Binding.importFrom c c.ask project target name
  | .expression names enclosing n => resolve c c.ask (names.lookup c.ask) enclosing (.ofNode n)
  | .hint names n => resolveHint c c.ask (names.lookup c.ask) (.ofNode n)
  | .member b attr => memberOf c c.ask b attr

/-- Ask something of a codebase, where questions are answered in a given way. -/
def Query.askWith (c : Codebase) (q : Questions) : Query → Resolve (Option Denotation)
  | .exported m name => q.exported m name
  | .importFrom project target name => some <$> Binding.importFrom c q project target name
  | .expression names enclosing n => resolve c q (names.lookup q) enclosing (.ofNode n)
  | .hint names n => resolveHint c q (names.lookup q) (.ofNode n)
  | .member b attr => memberOf c q b attr

theorem Query.ask_eq (c : Codebase) (x : Query) : x.ask c = x.askWith c c.ask := by
  cases x <;> rfl

/-- The hints that come with what is asked. -/
def Query.hints : Query → List Hint
  | .hint _ n => [.ofNode n]
  | _ => []

/-- What is asked is related if the answers to questions are, and failures for its own hint. -/
theorem Sequential.askWith {R : ∀ ⦃α : Type⦄, Resolve α → Resolve α → Prop} (hR : Sequential R)
    {c : Codebase} {q p : Questions} (hq : ∀ Q, c.Asks Q → R (q.reply Q) (p.reply Q)) {x : Query}
    (hx : ∀ h ∈ x.hints, ∀ why ∈ h.faults, Throws why R) : R (x.askWith c q) (x.askWith c p) := by
  have hlookup : ∀ (names : Names) id, R (names.lookup q id) (names.lookup p id) := by
    intro names id
    rw [Names.lookup, Names.lookup]
    split
    · exact hq (.ofName _ _) trivial
    · exact hR.pure _
  cases x with
  | exported m name => exact hq (.ofName m name) trivial
  | importFrom project target name => exact hR.map (hR.importFrom hq project target name) some
  | expression names enclosing n => exact hR.resolve hq (hlookup names) enclosing _
  | hint names n => exact hR.resolveHint hq (hlookup names) (hx _ List.mem_cons_self)
  | member b attr => exact hR.memberOf hq b attr

theorem Congruence.askWith {R : ∀ ⦃α : Type⦄, Resolve α → Resolve α → Prop} (hR : Congruence R)
    {c : Codebase} {q p : Questions} (hq : ∀ Q, c.Asks Q → R (q.reply Q) (p.reply Q)) (x : Query) :
    R (x.askWith c q) (x.askWith c p) :=
  hR.toSequential.askWith hq fun _ _ why _ => hR.throw why

/-- What happens to a codebase: something is asked, or a base class of a class is looked for. -/
inductive Event where
  | query (x : Query)
  | base (k : ClassId) (expr : Syntax.Node)

/-- A codebase with the answers kept. -/
structure Environment where
  codebase : Codebase
  kept : Cache := []

namespace Environment

/-- Go on by an event. -/
def step (e : Environment) : Event → Environment
  | .query x => { e with kept := ((x.ask e.codebase).run e.kept).2 }
  | .base k expr =>
    match (e.codebase.resolveBase k expr).run e.kept with
    | (.ok codebase, kept) => { codebase, kept }
    | (.error _, kept) => { e with kept }

/-- Go on by events, one after the other. -/
def run (e : Environment) (events : List Event) : Environment := events.foldl step e

/-- The versions of the codebase that there are on the way. -/
def versions (e : Environment) : List Event → List Codebase
  | [] => [e.codebase]
  | event :: later => e.codebase :: (e.step event).versions later

/-- The binding of a name at the end of a module. -/
def export? (e : Environment) (m : Nat) (name : String) : Except Fault (Option Denotation) :=
  ((e.codebase.ask.exported m name).run e.kept).1

end Environment

/-! ### What events keep -/

section

variable {I : Cache → Prop} {c : Codebase}

open Codebase

theorem keeps_query (hq : ∀ Q, c.Asks Q → Keeps I (c.ask.reply Q)) (x : Query) :
    Keeps I (x.ask c) := by
  rw [Query.ask_eq]
  exact (congruence_keeps I).askWith (p := c.ask) hq x

theorem keeps_resolveBase (hq : ∀ Q, c.Asks Q → Keeps I (c.ask.reply Q)) (k : ClassId)
    (expr : Syntax.Node) : Keeps I (c.resolveBase k expr) := by
  have hR := congruence_keeps I
  have hlookup : ∀ id, Keeps I (c.ask.exported k.moduleIndex id) := fun id =>
    hq (.ofName k.moduleIndex id) trivial
  refine Keeps.bind (hR.resolve (p := c.ask) (l := c.ask.exported k.moduleIndex) hq hlookup none _)
    fun found => ?_
  split <;> exact hR.pure _

/-- What all replies keep, an event keeps. -/
theorem Environment.kept_step {e : Environment}
    (hq : ∀ Q, e.codebase.Asks Q → Keeps I (e.codebase.ask.reply Q)) (he : I e.kept)
    (event : Event) : I (e.step event).kept := by
  cases event with
  | query x => exact keeps_query hq x e.kept he
  | base k expr =>
    have hkept := keeps_resolveBase hq k expr e.kept he
    simp only [step]
    generalize (e.codebase.resolveBase k expr).run e.kept = ran at hkept ⊢
    obtain ⟨f | c, kept⟩ := ran
    · exact hkept
    · exact hkept

end

namespace Environment

open Codebase

variable {vs : List Codebase}

theorem right_step {e : Environment} (he : Right vs e.kept) (hc : e.codebase ∈ vs) (event : Event) :
    Right vs (e.step event).kept :=
  kept_step (fun _ hQ => keeps_ask hc hQ) he event

theorem codebase_mem_versions (e : Environment) (events : List Event) :
    e.codebase ∈ e.versions events := by
  cases events <;> exact List.mem_cons_self

/-- The answers kept stay right, as long as all versions there are on the way count. -/
theorem right_run {e : Environment} {events : List Event}
    (hvs : ∀ c ∈ e.versions events, c ∈ vs) (he : Right vs e.kept) :
    Right vs (e.run events).kept ∧ (e.run events).codebase ∈ vs := by
  induction events generalizing e with
  | nil => exact ⟨he, hvs _ (e.codebase_mem_versions [])⟩
  | cons event later ih =>
    refine ih (fun c hc => hvs c (List.mem_cons_of_mem _ hc)) ?_
    exact right_step he (hvs _ (e.codebase_mem_versions (event :: later))) event

/-- Finding base classes changes nothing but these. -/
theorem exists_bases_step (e : Environment) (event : Event) :
    ∃ bases, (e.step event).codebase = { e.codebase with bases } := by
  cases event with
  | query x => exact ⟨_, rfl⟩
  | base k expr =>
    have hbase : ∀ s c kept, (e.codebase.resolveBase k expr).run s = (.ok c, kept) →
        ∃ bases, c = { e.codebase with bases } := by
      intro s c kept hrun
      unfold resolveBase at hrun
      rw [run_bind] at hrun
      generalize (resolve e.codebase _ _ _ _).run s = ran at hrun
      obtain ⟨f | found, s'⟩ := ran
      · cases hrun
      · dsimp only at hrun
        split at hrun
        · rename_i b _
          obtain rfl : (if b = k then e.codebase else e.codebase.addBase k b) = c := by
            cases hrun
            rfl
          split
          · exact ⟨_, rfl⟩
          · exact ⟨_, rfl⟩
        · cases hrun
          exact ⟨_, rfl⟩
    rw [step]
    dsimp only
    split
    · rename_i c kept hrun
      exact hbase _ c kept hrun
    · exact ⟨_, rfl⟩

theorem exists_bases_run (e : Environment) (events : List Event) :
    ∃ bases, (e.run events).codebase = { e.codebase with bases } := by
  induction events generalizing e with
  | nil => exact ⟨_, rfl⟩
  | cons event later ih =>
    obtain ⟨bases, hstep⟩ := e.exists_bases_step event
    obtain ⟨bases', hrun⟩ := ih (e.step event)
    refine ⟨bases', ?_⟩
    rw [hstep] at hrun
    exact hrun

/-- All versions of a codebase have the same modules. -/
theorem exists_bases_of_mem_versions {e : Environment} {events : List Event} {c : Codebase}
    (h : c ∈ e.versions events) : ∃ bases, c = { e.codebase with bases } := by
  induction events generalizing e with
  | nil => exact ⟨_, List.mem_singleton.mp h⟩
  | cons event later ih =>
    rcases List.mem_cons.mp h with rfl | h
    · exact ⟨_, rfl⟩
    · obtain ⟨bases, hstep⟩ := e.exists_bases_step event
      obtain ⟨bases', hc⟩ := ih h
      exact ⟨bases', by rw [hc, hstep]⟩

theorem export?_eq {e : Environment} (houtlined : e.codebase.Outlined) (hc : e.codebase ∈ vs)
    (he : Right vs e.kept) {m : Nat} {name : String} {r : Except Fault (Option Denotation)}
    (h : Settles vs m name r) : e.export? m name = r := by
  obtain ⟨hr, depth, hdepth⟩ := h
  have hQ : e.codebase.Asks (.ofName m name) := trivial
  have hfollows := (keeps_and_follows hc e.codebase.depth hQ leads_nothing).2 depth e.kept [] he
    (by rw [Answers.run_reply, hdepth]; exact hr)
  rw [Answers.run_reply, hdepth] at hfollows
  exact hfollows.2.resolve_right fun h => unlimited_ask houtlined hQ e.kept h.2

/-! ### Finding all base classes -/

theorem run_append (e : Environment) (events later : List Event) :
    e.run (events ++ later) = (e.run events).run later := List.foldl_append

/-- Work through a list is a run if each step of it is. -/
theorem exists_run_foldlM {α : Type} {f : Codebase → α → Resolve Codebase}
    (hf : ∀ c a s c' s', (f c a).run s = (.ok c', s') →
      ∃ events, run ⟨c, s⟩ events = ⟨c', s'⟩) (l : List α) {c c' : Codebase} {s s' : Cache}
    (h : (l.foldlM f c).run s = (.ok c', s')) : ∃ events, run ⟨c, s⟩ events = ⟨c', s'⟩ := by
  induction l generalizing c s with
  | nil =>
    obtain ⟨rfl, rfl⟩ : c = c' ∧ s = s' := by
      cases h
      exact ⟨rfl, rfl⟩
    exact ⟨[], rfl⟩
  | cons a rest ih =>
    rw [List.foldlM_cons, run_bind] at h
    cases hstep : (f c a).run s with
    | mk r s₁ =>
      rw [hstep] at h
      cases r with
      | error e => cases h
      | ok c₁ =>
        obtain ⟨events, hevents⟩ := hf c a s c₁ s₁ hstep
        obtain ⟨later, hlater⟩ := ih h
        exact ⟨events ++ later, by rw [run_append, hevents, hlater]⟩

/-- Finding the base classes of all classes is a run. -/
theorem exists_run_resolveBases {c c' : Codebase} {s s' : Cache}
    (h : c.resolveBases.run s = (.ok c', s')) : ∃ events, run ⟨c, s⟩ events = ⟨c', s'⟩ := by
  refine exists_run_foldlM (fun c k s c' s' hk => ?_) c.classIds h
  cases hd : c.classDecl? k with
  | none =>
    rw [hd] at hk
    cases hk
    exact ⟨[], rfl⟩
  | some d =>
    rw [hd] at hk
    refine exists_run_foldlM (fun c base s c' s' hbase => ⟨[.base k base], ?_⟩) d.baseExprs hk
    show step ⟨c, s⟩ (.base k base) = _
    simp only [step, hbase]

/-! ### The same answer -/

/-- **A known answer does not depend on what was asked before.** In any codebase, with any base
classes, after any number of questions of all kinds and of base classes found in the meantime, in
any order, a name has the binding that it has when it is asked for first and nothing is kept, as
long as its answer is known in all versions of the codebase on the way. Other names may lead back to
themselves, and may have been asked for before. -/
theorem export_eq_of_settles (modules : List ModuleDecls) (bases : Table ClassId (List ClassId))
    (events : List Event)
    (hvs : ∀ c ∈ versions ⟨{ Codebase.ofModules modules with bases }, []⟩ events, c ∈ vs)
    {m : Nat} {name : String} {r : Except Fault (Option Denotation)} (h : Settles vs m name r) :
    let e := run ⟨{ Codebase.ofModules modules with bases }, []⟩ events
    e.export? m name = r ∧ export? ⟨e.codebase, []⟩ m name = r := by
  intro e
  obtain ⟨hright, hc⟩ := right_run hvs (right_nil vs)
  have houtlined : e.codebase.Outlined := by
    obtain ⟨bases', hbases⟩ :=
      exists_bases_run ⟨{ Codebase.ofModules modules with bases }, []⟩ events
    rw [show e.codebase = _ from hbases]
    exact outlined_ofModules modules bases'
  exact ⟨export?_eq houtlined hc hright h,
    export?_eq (e := ⟨e.codebase, []⟩) houtlined hc (right_nil vs) h⟩

/-- Two modules that import a name from each other, which one of them declares, and two that have
nothing to do with them. -/
def crossing : List ModuleDecls :=
  [extractModule
      { name := "a", project := "p"
        body := [.classDef ⟨0, 0, 0⟩ "x" [] [] [.plain ⟨0, 9, 0⟩ .passing []] [],
          .importFrom ⟨1, 0, 1⟩ (some "b") [⟨"x", none⟩] 0] },
    extractModule
      { name := "b", project := "p"
        body := [.importFrom ⟨0, 0, 0⟩ (some "a") [⟨"x", none⟩] 0] },
    extractModule
      { name := "c", project := "p"
        body := [.classDef ⟨0, 0, 0⟩ "y" [] [] [.plain ⟨0, 9, 0⟩ .passing []] [],
          .classDef ⟨1, 0, 1⟩ "z" [.name ⟨1, 8, 1⟩ "y" .load] []
            [.plain ⟨1, 12, 1⟩ .passing []] []] },
    extractModule
      { name := "d", project := "p"
        body := [.importFrom ⟨0, 0, 0⟩ (some "c") [⟨"z", none⟩] 0] }]

/-- After questions about the crossing imports, and with a base class found in between, the class
that is taken over from elsewhere is the same. -/
theorem export_eq_of_settles_crossing :
    let e := run ⟨Codebase.ofModules crossing, []⟩ [.query (.exported 0 "x"),
      .base ⟨2, ⟨1, 0⟩⟩ (.name ⟨1, 8, 1⟩ "y" .load), .query (.exported 1 "x")]
    e.codebase.bases = [(⟨2, ⟨1, 0⟩⟩, [⟨2, ⟨0, 0⟩⟩])] ∧
      e.export? 3 "z" = .ok (some (.classObject ⟨2, ⟨1, 0⟩⟩ false)) ∧
      export? ⟨e.codebase, []⟩ 3 "z" = .ok (some (.classObject ⟨2, ⟨1, 0⟩⟩ false)) := by
  refine ⟨by decide +kernel, export_eq_of_settles crossing [] _ (fun c hc => hc) ⟨nofun, 3, ?_⟩⟩
  decide +kernel

/-- What is kept does depend on what was asked first where a question leads back to itself: a name
that is imported from the module that declares it is that class when it is asked for first, and
something unknown when the class was asked for before. -/
theorem export_depends_on_history :
    ¬ ∀ (modules : List ModuleDecls) (c : Codebase) (kept : Cache) (queries : List Query) (m : Nat)
        (name : String), (Codebase.ofModules modules).resolveBases.run [] = (.ok c, kept) →
      (run ⟨c, kept⟩ (queries.map .query)).export? m name = export? ⟨c, []⟩ m name := by
  intro h
  have hsame := h (crossing.take 2) (Codebase.ofModules (crossing.take 2)) []
    [.exported 0 "x"] 1 "x" rfl
  revert hsame
  decide +kernel

end Environment

end Concordance.Binding
