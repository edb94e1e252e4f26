import Concordance.Proofs.Binding.History

/-!
# Two spellings of an import

A name of a module can be reached in two ways: as a member, after the module has been imported, and
by an import of the name from the module. Both come down to one question about a name of a module,
or to the module of that name below it. They differ in two points. A member is looked for below the
module first and then in it, an import the other way round; and a member is looked for in the first
module of the name there is, an import in the one of the importer's project. Where neither point
matters the two spellings denote the same, and go on to do so whatever is asked in between: the
first of them leaves its answer kept, and what is kept stays.

Where one of them matters they do differ, as `Environment.spellings_differ` shows.

## Main definitions

* `Environment.member?`, `Environment.imported?`: the two spellings
* `Environment.Unambiguous`: neither point matters

## Main results

* `Environment.find?_run`: an answer that is kept stays kept
* `Environment.spellings_agree`: the two spellings denote the same
-/

namespace Concordance.Binding

/-! ### What is kept stays kept -/

namespace Codebase

/-- A reply takes nothing back that is kept. -/
theorem keeps_kept (c : Codebase) (depth : Nat) (asked : Open) (Q Q₀ : Question)
    (kept : Option Denotation) :
    Keeps (fun s => Q₀.kept? s = some kept) ((c.questions depth asked).reply Q) := by
  induction depth generalizing asked Q with
  | zero =>
    intro s hs
    have hrun : (((c.questions 0 asked).reply Q).run s).2 = s := by cases Q <;> rfl
    rw [hrun]
    exact hs
  | succ depth ih =>
    intro s hs
    rw [run_reply]
    cases hQ : Q.kept? s with
    | some found => exact hs
    | none =>
      dsimp only
      split
      case isTrue => exact hs
      case isFalse =>
        have hkeeps := (congruence_keeps fun s => Q₀.kept? s = some kept).answer (c := c)
          (p := c.questions depth (asked.add Q)) (fun Q' _ => ih (asked.add Q) Q') Q s hs
        generalize (c.answer (c.questions depth (asked.add Q)) Q).run s = ran at hkeeps ⊢
        obtain ⟨e | found, s'⟩ := ran
        · exact hkeeps
        · rcases kept?_keep Q Q₀ found s' with heq | ⟨rfl, -⟩
          · exact heq.trans hkeeps
          · cases hQ.symm.trans hs

/-- A question that nothing is open above is answered by what is kept, else one level deeper. -/
theorem run_ask (c : Codebase) (Q : Question) (s : Cache) :
    (c.ask.reply Q).run s =
      match Q.kept? s with
      | some kept => (.ok kept, s)
      | none =>
        match (c.answer (c.questions (c.depth - 1) (Open.add {} Q)) Q).run s with
        | (.ok found, s') => (.ok found, Q.keep found s')
        | (.error e, s') => (.error e, s') := by
  have hopen : ¬ Open.Has {} Q := by cases Q <;> exact List.not_mem_nil
  rw [ask, show c.depth = c.depth - 1 + 1 from rfl, run_reply, if_neg hopen]
  rfl

/-- The answer for a name is kept. -/
theorem find?_of_ask {c : Codebase} {m : Nat} {name : String} {s s' : Cache}
    {found : Option Denotation} (h : (c.ask.exported m name).run s = (.ok found, s')) :
    s'.find? (m, name) = some found := by
  have hask := c.run_ask (.ofName m name) s
  rw [show (c.ask.reply (.ofName m name)).run s = (.ok found, s') from h] at hask
  cases hkept : s.find? (m, name) with
  | some kept =>
    simp only [Question.kept?, hkept] at hask
    obtain ⟨rfl, rfl⟩ : found = kept ∧ s' = s := by
      cases hask
      exact ⟨rfl, rfl⟩
    exact hkept
  | none =>
    simp only [Question.kept?, hkept] at hask
    generalize (c.answer _ _).run s = ran at hask
    obtain ⟨e | a, t⟩ := ran
    · cases hask
    · cases hask
      show (t.insert (m, name) found).find? (m, name) = some found
      rw [Table.find?_insert, if_pos rfl]

end Codebase

namespace Environment

open Codebase

/-- **What is kept stays kept**, whatever happens. -/
theorem find?_run {e : Environment} {m : Nat} {name : String} {kept : Option Denotation}
    (h : e.kept.find? (m, name) = some kept) (events : List Event) :
    (e.run events).kept.find? (m, name) = some kept := by
  induction events generalizing e with
  | nil => exact h
  | cons event later ih =>
    refine ih (e := e.step event) ?_
    exact kept_step (I := fun s => (Question.ofName m name).kept? s = some kept)
      (fun Q _ => keeps_kept _ _ {} Q _ kept) h event

/-- A kept answer is the answer. -/
theorem export?_of_find? {e : Environment} {m : Nat} {name : String} {kept : Option Denotation}
    (h : e.kept.find? (m, name) = some kept) : e.export? m name = .ok kept := by
  have hask := e.codebase.run_ask (.ofName m name) e.kept
  rw [show (Question.ofName m name).kept? e.kept = some kept from h] at hask
  exact congrArg Prod.fst hask

/-- Events find base classes, and leave the modules as they are. -/
theorem modules_run (e : Environment) (events : List Event) :
    (e.run events).codebase.modules = e.codebase.modules := by
  obtain ⟨bases, h⟩ := e.exists_bases_run events
  rw [h]

/-! ### The spellings -/

/-- The binding of a name in a module that may not exist. -/
def exportFrom? (e : Environment) (m : Option Nat) (name : String) :
    Except Fault (Option Denotation) :=
  ((e.codebase.ask.exportedFrom m name).run e.kept).1

/-- What a member of a binding denotes. -/
def member? (e : Environment) (b : Denotation) (attr : String) :
    Except Fault (Option Denotation) :=
  ((memberOf e.codebase e.codebase.ask b attr).run e.kept).1

/-- What an import of a name binds, for an importer in a project. -/
def imported? (e : Environment) (project : Option String) (target name : String) :
    Except Fault Denotation :=
  ((importFrom e.codebase e.codebase.ask project target name).run e.kept).1

/-- The module of a name below a module, if there is one. -/
def below? (e : Environment) (target name : String) : Option Denotation :=
  if e.codebase.hasModule (target ++ "." ++ name) then
    some (.moduleNamed (target ++ "." ++ name))
  else none

/-- Neither the order in which a module and what is below it are looked at matters, nor whose module
it is: if there is a module of the name below the one that is meant, that one binds the name to
nothing else; if there is none, the importer's project finds the first module there is. -/
structure Unambiguous (e : Environment) (project : Option String) (target name : String) :
    Prop where
  bound : ∀ b, e.below? target name = some b →
    e.exportFrom? (e.codebase.findModule? target project) name = .ok none ∨
      e.exportFrom? (e.codebase.findModule? target project) name = .ok (some b)
  found : e.below? target name = none →
    e.codebase.findModule? target project = e.codebase.findModule? target none

/-- An import asks for the name in the module, and then falls back on the module below it. -/
theorem run_importFrom (c : Codebase) (q : Questions) (project : Option String)
    (target name : String) (s : Cache) :
    (importFrom c q project target name).run s =
      match (q.exportedFrom (c.findModule? target project) name).run s with
      | (.ok (some b), s') => (.ok b, s')
      | (.ok none, s') =>
        (.ok (if c.hasModule (target ++ "." ++ name) then .moduleNamed (target ++ "." ++ name)
          else .other), s')
      | (.error f, s') => (.error f, s') := by
  rw [importFrom, run_bind]
  generalize (q.exportedFrom _ name).run s = ran
  obtain ⟨f | found, s'⟩ := ran
  · rfl
  · cases found <;> rfl

section

variable {e : Environment} {project : Option String} {target name : String}

theorem imported?_eq :
    e.imported? project target name =
      (e.exportFrom? (e.codebase.findModule? target project) name).map fun found =>
        found.getD ((e.below? target name).getD .other) := by
  rw [imported?, run_importFrom, exportFrom?, below?]
  generalize (e.codebase.ask.exportedFrom _ name).run e.kept = ran
  obtain ⟨f | found, s⟩ := ran
  · rfl
  · cases found with
    | some b => rfl
    | none => by_cases h : e.codebase.hasModule (target ++ "." ++ name) <;> simp [h, Except.map]

theorem Unambiguous.imported?_of_below (h : e.Unambiguous project target name) {b : Denotation}
    (hbelow : e.below? target name = some b) : e.imported? project target name = .ok b := by
  rw [imported?_eq, hbelow]
  rcases h.bound b hbelow with hbound | hbound
  · rw [hbound]
    rfl
  · rw [hbound]
    rfl

/-- Without a module below, both spellings ask for the name in the same module. -/
theorem Unambiguous.imported?_of_not_below (h : e.Unambiguous project target name)
    (hbelow : e.below? target name = none) :
    e.imported? project target name =
      (e.exportFrom? (e.codebase.findModule? target none) name).map fun b => b.getD .other := by
  rw [imported?_eq, hbelow, h.found hbelow]
  rfl

theorem memberOf_of_below {b : Denotation} (hbelow : e.below? target name = some b) :
    memberOf e.codebase e.codebase.ask (.moduleNamed target) name = pure (some b) := by
  rw [below?] at hbelow
  rw [memberOf]
  by_cases h : e.codebase.hasModule (target ++ "." ++ name)
  · rw [if_pos h] at hbelow
    obtain rfl := Option.some.inj hbelow
    exact if_pos h
  · rw [if_neg h] at hbelow
    cases hbelow

theorem memberOf_of_not_below (hbelow : e.below? target name = none) :
    memberOf e.codebase e.codebase.ask (.moduleNamed target) name =
      e.codebase.ask.exportedFrom (e.codebase.findModule? target none) name := by
  rw [below?] at hbelow
  rw [memberOf]
  by_cases h : e.codebase.hasModule (target ++ "." ++ name)
  · rw [if_pos h] at hbelow
    cases hbelow
  · exact if_neg h

theorem member?_of_below {b : Denotation} (hbelow : e.below? target name = some b) :
    e.member? (.moduleNamed target) name = .ok (some b) := by
  rw [member?, memberOf_of_below hbelow]
  rfl

theorem member?_of_not_below (hbelow : e.below? target name = none) :
    e.member? (.moduleNamed target) name =
      e.exportFrom? (e.codebase.findModule? target none) name := by
  rw [member?, memberOf_of_not_below hbelow]
  rfl

end

/-! ### Asked later -/

theorem below?_run (e : Environment) (events : List Event) (target name : String) :
    (e.run events).below? target name = e.below? target name := by
  rw [below?, below?, hasModule, hasModule, modules_run]

theorem findModule?_run (e : Environment) (events : List Event) (target : String)
    (project : Option String) :
    (e.run events).codebase.findModule? target project = e.codebase.findModule? target project := by
  rw [findModule?, findModule?, modules_run]

/-- A name of a module has the same binding when it is asked for again later. -/
theorem exportFrom?_run {e e' : Environment} {m : Option Nat} {name : String}
    {b : Option Denotation} (h : e.exportFrom? m name = .ok b)
    (hkept : e'.kept = ((e.codebase.ask.exportedFrom m name).run e.kept).2) (events : List Event) :
    (e'.run events).exportFrom? m name = .ok b := by
  cases m with
  | none => exact h
  | some m =>
    refine export?_of_find? (find?_run ?_ events)
    rw [hkept]
    exact find?_of_ask (Prod.ext h rfl)

section

variable {e : Environment} {project : Option String} {target name : String}

theorem imported?_of_member? {b : Option Denotation}
    (hb : e.member? (.moduleNamed target) name = .ok b) {events : List Event}
    (h : ((e.step (.query (.member (.moduleNamed target) name))).run events).Unambiguous
      project target name) :
    ((e.step (.query (.member (.moduleNamed target) name))).run events).imported?
      project target name = .ok (b.getD .other) := by
  have hlater :=
    below?_run (e.step (.query (.member (.moduleNamed target) name))) events target name
  cases hbelow : e.below? target name with
  | some b' =>
    rw [member?_of_below hbelow] at hb
    cases hb
    exact h.imported?_of_below (hlater.trans hbelow)
  | none =>
    rw [member?_of_not_below hbelow] at hb
    have hkept : (e.step (.query (.member (.moduleNamed target) name))).kept =
        ((e.codebase.ask.exportedFrom (e.codebase.findModule? target none) name).run e.kept).2 := by
      rw [← memberOf_of_not_below hbelow]
      rfl
    rw [h.imported?_of_not_below (hlater.trans hbelow), findModule?_run]
    show (Except.map _ (exportFrom? _ (e.codebase.findModule? target none) name)) = _
    rw [exportFrom?_run hb hkept]
    rfl

theorem member?_of_imported? {b : Denotation} (hb : e.imported? project target name = .ok b)
    (h : e.Unambiguous project target name) (events : List Event) :
    ∃ b', ((e.step (.query (.importFrom project target name))).run events).member?
      (.moduleNamed target) name = .ok b' ∧ b'.getD .other = b := by
  have hlater := below?_run (e.step (.query (.importFrom project target name))) events target name
  cases hbelow : e.below? target name with
  | some b' =>
    rw [h.imported?_of_below hbelow] at hb
    cases hb
    exact ⟨some b, member?_of_below (hlater.trans hbelow), rfl⟩
  | none =>
    rw [h.imported?_of_not_below hbelow] at hb
    have hkept : (e.step (.query (.importFrom project target name))).kept =
        ((e.codebase.ask.exportedFrom (e.codebase.findModule? target none) name).run e.kept).2 := by
      show ((some <$> importFrom e.codebase e.codebase.ask project target name).run e.kept).2 = _
      rw [map_eq_pure_bind, run_bind, run_importFrom, h.found hbelow]
      generalize (e.codebase.ask.exportedFrom _ name).run e.kept = ran
      obtain ⟨f | found, s⟩ := ran
      · rfl
      · cases found <;> rfl
    cases hfound : e.exportFrom? (e.codebase.findModule? target none) name with
    | error f =>
      rw [hfound] at hb
      cases hb
    | ok found =>
      rw [hfound] at hb
      refine ⟨found, ?_, Except.ok.inj hb⟩
      rw [member?_of_not_below (hlater.trans hbelow), findModule?_run]
      exact exportFrom?_run hfound hkept events

/-! ### The same denotation -/

/-- **The two spellings of an import denote the same**, unless it is in doubt which module is meant
or whether the name in it or the module below it is. That holds when both are asked in one state of
the environment, whether or not there is an answer, and also when one of them is asked later than
the other, after anything has happened in between. -/
theorem spellings_agree (e : Environment) (project : Option String) (target name : String) :
    (e.Unambiguous project target name →
      e.imported? project target name =
        (e.member? (.moduleNamed target) name).map fun b => b.getD .other) ∧
    (∀ events b, e.member? (.moduleNamed target) name = .ok b →
      let later := (e.step (.query (.member (.moduleNamed target) name))).run events
      later.Unambiguous project target name →
        later.imported? project target name = .ok (b.getD .other)) ∧
    ∀ events b, e.imported? project target name = .ok b → e.Unambiguous project target name →
      let later := (e.step (.query (.importFrom project target name))).run events
      ∃ b', later.member? (.moduleNamed target) name = .ok b' ∧ b'.getD .other = b := by
  refine ⟨fun h => ?_, fun events b hb => imported?_of_member? hb,
    fun events b hb h => member?_of_imported? hb h events⟩
  cases hbelow : e.below? target name with
  | some b =>
    rw [h.imported?_of_below hbelow, member?_of_below hbelow]
    rfl
  | none => rw [h.imported?_of_not_below hbelow, member?_of_not_below hbelow]

end

/-- Two projects with a module of one name. The first of them is a package that declares a class
and imports another one from the module below it, which has the name of that module. -/
def twins : List ModuleDecls :=
  [extractModule
      { name := "m", project := "p", isPackage := true
        body := [.classDef ⟨0, 0, 0⟩ "C" [] [] [.plain ⟨0, 9, 0⟩ .passing []] [],
          .importFrom ⟨1, 0, 1⟩ (some "m.n") [⟨"n", none⟩] 0] },
    extractModule
      { name := "m.n", project := "p"
        body := [.classDef ⟨0, 0, 0⟩ "n" [] [] [.plain ⟨0, 9, 0⟩ .passing []] []] },
    extractModule
      { name := "m", project := "q"
        body := [.classDef ⟨0, 0, 0⟩ "C" [] [] [.plain ⟨0, 9, 0⟩ .passing []] []] },
    extractModule
      { name := "app", project := "q"
        body := [.importModules ⟨0, 0, 0⟩ [⟨"m", none⟩]] }]

/-- Within its own project the class of the package is the same in both spellings, also when the
other questions have been asked before. -/
theorem spellings_agree_package :
    let e : Environment := ⟨Codebase.ofModules twins, []⟩
    let later := (e.step (.query (.member (.moduleNamed "m") "C"))).run
      [.query (.importFrom (some "q") "m" "C"), .query (.exported 0 "n")]
    later.Unambiguous (some "p") "m" "C" ∧
      later.imported? (some "p") "m" "C" = .ok (.classObject ⟨0, ⟨0, 0⟩⟩ false) := by
  intro e later
  have h : later.Unambiguous (some "p") "m" "C" := by
    refine ⟨fun b hb => ?_, fun _ => by decide +kernel⟩
    rw [show later.below? "m" "C" = none by decide +kernel] at hb
    cases hb
  have hmember :
      e.member? (.moduleNamed "m") "C" = .ok (some (.classObject ⟨0, ⟨0, 0⟩⟩ false)) := by
    decide +kernel
  exact ⟨h, (spellings_agree e (some "p") "m" "C").2.1 _ _ hmember h⟩

/-- Where two projects have a module of one name, the spellings denote classes of different
projects. -/
theorem spellings_differ :
    ¬ ∀ (modules : List ModuleDecls) (c : Codebase) (kept : Cache) (project : Option String)
        (target name : String), (Codebase.ofModules modules).resolveBases.run [] = (.ok c, kept) →
      c.hasModule target →
      imported? ⟨c, kept⟩ project target name =
        (member? ⟨c, kept⟩ (.moduleNamed target) name).map fun b => b.getD .other := by
  intro h
  have hsame := h twins (Codebase.ofModules twins) [] (some "q") "m" "C" rfl (by decide +kernel)
  revert hsame
  decide +kernel

/-- And so they do where a package binds the name of a module below it. -/
example :
    imported? ⟨Codebase.ofModules twins, []⟩ (some "p") "m" "n" =
        .ok (.classObject ⟨1, ⟨0, 0⟩⟩ false) ∧
      member? ⟨Codebase.ofModules twins, []⟩ (.moduleNamed "m") "n" =
        .ok (some (.moduleNamed "m.n")) := by
  decide +kernel

end Environment

end Concordance.Binding
