import Concordance.Proofs.Binding.Backing
import Concordance.Proofs.Binding.Illegible
import Concordance.Proofs.Binding.OwnNames
import Concordance.Proofs.Declaration.Nested

/-!
# Whatever is looked up is there

Names are resolved with tables that are filled one after the other: the classes of each module, what
its names are bound by, the members of each class and the classes within it, and the base classes.
What is looked up in one of them comes from another. So each of these lookups could fail, and the
way in which the tables are filled is all that there is against it. The tables of modules that are
read agree with each other, and whatever is done with them afterwards adds nothing that is not
declared. What is left to fail for is an illegible text in a hint.

## Main definitions

* `Task`, `Environment.carryOut`: what can be done with a codebase
* `Environment.Complete`: nothing that is looked up is missing

## Main results

* `Codebase.coherent_ofModules`: the tables of modules that are read agree
* `finds_work`: work keeps what is known backed
* `exists_holdsIllegible_of_work`: what work can fail for
* `Environment.complete_carryOutAll`: nothing is missing, whatever has been done
-/

namespace Concordance.Binding

open Codebase Syntax

/-! ### What is done with a codebase -/

theorem Query.isWritten_of_mem_hints {x : Query} {h : Hint} (hmem : h ∈ x.hints) :
    h.IsWritten := by
  cases x with
  | hint names n =>
    obtain rfl := List.mem_singleton.mp hmem
    exact Hint.isWritten_ofNode n
  | _ => cases hmem

/-- The bindings and the class that come with a question are of declared classes. -/
def Query.Backed (c : Codebase) : Query → Prop
  | .exported _ _ => True
  | .importFrom _ _ _ => True
  | .expression names enclosing _ =>
    (∀ id b, names id = .inr b → c.BacksFound b) ∧ ∀ k ∈ enclosing, c.Has k
  | .hint names _ => ∀ id b, names id = .inr b → c.BacksFound b
  | .member b _ => c.Backs b

/-- Something that is done with a codebase: a question is asked, one base class is looked for or all
of them are, one after the other, or the references of a module are collected. -/
inductive Task where
  | query (x : Query)
  | base (k : ClassId) (expr : Node)
  | bases
  | references (m : Nat)

namespace Task

/-- The hints that come with a task. -/
def hints : Task → List Hint
  | query x => x.hints
  | _ => []

/-- What comes with a task are declared classes. -/
def Backed (c : Codebase) : Task → Prop
  | query x => x.Backed c
  | base k _ => c.Has k
  | _ => True

theorem backed_withBases {c : Codebase} {t : Task} (h : t.Backed c)
    (bases : Table ClassId (List ClassId)) : t.Backed { c with bases } := by
  cases t with
  | query x => cases x <;> exact h
  | _ => exact h

/-- The work on a task ends with the codebase as it is then. -/
def work (c : Codebase) : Task → Resolve Codebase
  | query x => do
    let _ ← x.ask c
    pure c
  | base k expr => c.resolveBase k expr
  | bases => c.resolveBases
  | references m => do
    let _ ← Binding.references c m
    pure c

end Task

namespace Environment

/-- Do something. What fails leaves the codebase as it was; a search for all base classes that fails
on the way is the same as the searches before that one. -/
def carryOut (e : Environment) (t : Task) : Environment :=
  match (t.work e.codebase).run e.kept with
  | (.ok codebase, kept) => { codebase, kept }
  | (.error _, kept) => { e with kept }

/-- Do one thing after the other. -/
def carryOutAll (e : Environment) (tasks : List Task) : Environment := tasks.foldl carryOut e

end Environment

/-! ### Backed work -/

section

variable {c : Codebase} {q : Questions} (hq : ∀ Q, Finds c c.BacksFound (q.reply Q))

include hq

theorem finds_lookup {names : Names} (hnames : ∀ id b, names id = .inr b → c.BacksFound b)
    (id : String) : Finds c c.BacksFound (names.lookup q id) := by
  rw [Names.lookup]
  split
  · rename_i m name _
    exact hq (.ofName m name)
  · rename_i b hb
    exact finds_pure (hnames id b hb)

theorem finds_askWith (hc : c.Coherent) {x : Query} (hx : x.Backed c) :
    Finds c c.BacksFound (x.askWith c q) := by
  cases x with
  | exported m name => exact hq (.ofName m name)
  | importFrom project target name =>
    show Finds c _ (some <$> _)
    rw [map_eq_pure_bind]
    exact (finds_importFrom hq project target name).bind fun b hb =>
      finds_pure ((backsFound_some b).mpr hb)
  | expression names enclosing n => exact finds_resolve hq hc (finds_lookup hq hx.1) hx.2 _
  | hint names n => exact finds_resolveHint hq hc (finds_lookup hq hx) _
  | member b attr => exact finds_memberOf hq hc b attr

end

section

variable {c : Codebase} (hc : c.Coherent)

include hc

theorem finds_walk (m : Nat) (steps : List Step) :
    Finds c (Walk.Backed c) (steps.foldlM (perform c c.ask m) {}) :=
  Finds.foldlM (fun _ step _ hw => finds_perform (finds_ask hc) m hw hc step) (.empty c)

/-- A base class that is found is a declared one. -/
theorem finds_resolveBase (hbases : c.BacksBases) (k : ClassId) (expr : Node) :
    Finds c (fun c' => ∃ bases, c' = { c with bases } ∧ c'.BacksBases) (c.resolveBase k expr) := by
  have hlookup : ∀ id, Finds c c.BacksFound (c.ask.exported k.moduleIndex id) := fun id =>
    finds_ask hc (.ofName k.moduleIndex id)
  refine (finds_resolve (finds_ask hc) hc hlookup (by simp) _).bind fun found hfound => ?_
  split
  · rename_i b aliased
    have hb : c.Has b := by simpa using hfound
    split
    · exact finds_pure ⟨c.bases, rfl, hbases⟩
    · refine finds_pure ⟨_, rfl, fun k' b' hb' => ?_⟩
      rw [basesOf, addBase, Table.find?_alter] at hb'
      split at hb'
      · rcases List.mem_append.mp hb' with hb' | hb'
        · exact hbases k b' hb'
        · obtain rfl := List.mem_singleton.mp hb'
          exact hb
      · exact hbases k' b' hb'
  · exact finds_pure ⟨c.bases, rfl, hbases⟩

/-- Whatever base classes are found, they are declared ones. -/
theorem finds_resolveBases (hbases : c.BacksBases) :
    Finds c (fun c' => ∃ bases, c' = { c with bases } ∧ c'.BacksBases) c.resolveBases := by
  refine Finds.foldlM (fun c₁ k _ h => ?_) ⟨c.bases, rfl, hbases⟩
  obtain ⟨bases₁, rfl, hbases₁⟩ := h
  split
  · refine Finds.foldlM (fun c₂ expr _ h => ?_) ⟨bases₁, rfl, hbases₁⟩
    obtain ⟨bases₂, rfl, hbases₂⟩ := h
    exact finds_resolveBase (hc.withBases bases₂) hbases₂ k expr
  · exact finds_pure ⟨bases₁, rfl, hbases₁⟩

/-- **Work keeps what is known backed**, whatever it is. -/
theorem finds_work (hbases : c.BacksBases) {t : Task} (ht : t.Backed c) :
    Finds c (fun c' => ∃ bases, c' = { c with bases } ∧ c'.BacksBases) (t.work c) := by
  cases t with
  | query x =>
    rw [Task.work, Query.ask_eq]
    exact (finds_askWith (finds_ask hc) hc ht).bind fun _ _ => finds_pure ⟨c.bases, rfl, hbases⟩
  | base k expr => exact finds_resolveBase hc hbases k expr
  | bases => exact finds_resolveBases hc hbases
  | references m =>
    refine Finds.bind (P := fun _ => True) ?_ fun _ _ => finds_pure ⟨c.bases, rfl, hbases⟩
    exact (finds_walk hc m _).bind fun _ _ => finds_pure trivial

end

/-! ### Work that fails -/

/-- **Work fails for one reason**: a hint that comes with it or is in a module holds an illegible
text. The failure says what is wrong with that text. -/
theorem exists_holdsIllegible_of_work {modules : List ModuleDecls} {c : Codebase}
    (hc : ∃ bases, c = { ofModules modules with bases }) {t : Task} {s : Cache} {f : Fault}
    (h : ((t.work c).run s).1 = .error f) :
    ∃ why, f = .unreadable why ∧
      ∃ hint, (hint ∈ t.hints ∨ ∃ d ∈ modules, hint ∈ hintsOf d) ∧ hint.HoldsIllegible why := by
  set mayFail : Illegible → Prop := fun why =>
    ∃ hint, (hint ∈ t.hints ∨ ∃ d ∈ modules, hint ∈ hintsOf d) ∧ hint.HoldsIllegible why
  have hmodules : ∀ d ∈ modules, ∀ hint ∈ hintsOf d, ∀ why ∈ hint.faults, mayFail why :=
    fun d hd hint hhint why hwhy =>
      ⟨hint, .inr ⟨d, hd, hhint⟩, holdsIllegible_of_mem_hintsOf hhint hwhy⟩
  have hends : ∃ P, GivesUnless mayFail P (t.work c) := by
    cases t with
    | query x =>
      have hown : ∀ hint ∈ x.hints, ∀ why ∈ hint.faults, mayFail why := fun hint hhint why hwhy =>
        ⟨hint, .inl hhint, (x.isWritten_of_mem_hints hhint).holdsIllegible hwhy⟩
      exact ⟨fun _ => True, (givesUnless_query hmodules hc hown).bind fun _ _ => .pure trivial⟩
    | base k expr => exact ⟨_, givesUnless_resolveBase hmodules hc k expr⟩
    | bases => exact ⟨_, givesUnless_resolveBases hmodules hc⟩
    | references m =>
      exact ⟨fun _ => True, (givesUnless_references hmodules hc m).bind fun _ _ => .pure trivial⟩
  obtain ⟨P, hP⟩ := hends
  have hs := hP s
  rwa [h] at hs

/-! ### Modules that are read -/

namespace Codebase

/-- A class statement of a module is declared. -/
theorem has_of_mem_moduleStatements {c : Codebase} {i : Nat} {m : SourceModule}
    (hm : c.modules[i]? = some (extractModule m)) {p : Place} {name : String}
    {bases keywords body decorators : List Node}
    (h : .classDef p name bases keywords body decorators ∈ moduleStatements m.body) :
    c.Has ⟨i, ⟨p.line, p.column⟩⟩ := by
  have hdeclared := SourceModule.declaredAt?_of_declares hm (.level h)
  obtain ⟨d, hd, -⟩ := Option.map_eq_some_iff.mp hdeclared
  exact Option.isSome_iff_exists.mpr ⟨d, hd⟩

/-- **The tables of modules that are read agree**, whatever base classes have been found. -/
theorem coherent_ofModules {sources : List SourceModule}
    (hparsed : ∀ m ∈ sources, ∃ source, parseModule source = .ok m.body)
    (bases : Table ClassId (List ClassId)) :
    Coherent { ofModules (sources.map extractModule) with bases } := by
  have hnests : ∀ k d, (ofModules (sources.map extractModule)).classDecl? k = some d →
      ∃ m ∈ sources, (ofModules (sources.map extractModule)).modules[k.moduleIndex]? =
        some (extractModule m) ∧ d.Nests (extractModule m).classes := by
    intro k d hk
    obtain ⟨decls, hdecls, hd⟩ := Option.bind_eq_some_iff.mp hk
    obtain ⟨m, hmem, rfl⟩ := List.mem_map.mp (List.mem_of_getElem? hdecls)
    obtain ⟨source, hsource⟩ := hparsed m hmem
    exact ⟨m, hmem, hdecls, SourceModule.nests_of_mem_classes (written_of_parseModule hsource) d
      (List.mem_of_find?_eq_some hd)⟩
  constructor
  case statements =>
    exact fun m name sources hsources k hk => isSome_classDecl?_of_classStatement hsources hk
  case types =>
    intro k d name s hk
    obtain ⟨m, -, -, h⟩ := hnests k d hk
    exact h.find name s
  case nested =>
    intro k d name p s hk hs
    obtain ⟨m, -, hm, h⟩ := hnests k d hk
    obtain ⟨d', hd', rfl, -⟩ := h.declared name p s hs
    have hfound : ((extractModule m).classAt? d'.position).isSome :=
      List.find?_isSome.mpr ⟨d', hd', decide_eq_true rfl⟩
    obtain ⟨d'', hd''⟩ := Option.isSome_iff_exists.mp hfound
    exact Option.isSome_iff_exists.mpr ⟨d'', Option.bind_eq_some_iff.mpr ⟨_, hm, hd''⟩⟩

/-- Whether there is what a question is about: a question about a member is about one of a declared
class. -/
def Answerable (c : Codebase) : Question → Prop
  | .ofName _ _ => True
  | .ofMember owner _ _ => c.Has owner

theorem answerable_of_asks {c : Codebase} {Q : Question} (h : c.Asks Q) : c.Answerable Q := by
  cases Q with
  | ofName m name => trivial
  | ofMember owner attr aspect =>
    obtain ⟨s, hs, -⟩ := h
    exact has_of_ownMember? hs

end Codebase

/-! ### Environments -/

namespace Environment

/-- Nothing that is looked up is missing. -/
structure Complete (e : Environment) : Prop where
  /-- Class statements of modules are declared. -/
  statements : ∀ i d, e.codebase.modules[i]? = some d →
    ∀ p name bases keywords body decorators,
      .classDef p name bases keywords body decorators ∈ moduleStatements d.source.body →
      e.codebase.Has ⟨i, ⟨p.line, p.column⟩⟩
  /-- The class statements that names of modules are bound by are declared. -/
  sources : ∀ m name sources, (e.codebase.outline m).names.find? name = some sources →
    ∀ k, .classStatement k ∈ sources → e.codebase.Has k
  /-- The module of a declared class is there. -/
  modules : ∀ k, e.codebase.Has k → ∃ d, e.codebase.modules[k.moduleIndex]? = some d
  /-- Every comprehension has a first clause. -/
  clauses : ∀ d ∈ e.codebase.modules, ∀ n ∈ d.source.body, ∀ p ∈ n.breadthFirst, p.isFilled
  /-- The class in which a member is found is declared. -/
  owners : ∀ b attr s owner, e.codebase.memberOn? b attr = some (s, owner) → e.codebase.Has owner
  /-- A member that is a type is a declared class within that class. -/
  types : ∀ b attr s owner, e.codebase.memberOn? b attr = some (s, owner) → s.kind = .type →
    ∃ d p, e.codebase.classDecl? owner = some d ∧ d.nested.find? attr = some (p, s) ∧
      e.codebase.Has ⟨owner.moduleIndex, p⟩
  /-- How questions about members of other classes would be answered never counts. -/
  asked : ∀ q p : Questions, (∀ Q, e.codebase.Answerable Q → q.reply Q = p.reply Q) →
    (∀ Q, e.codebase.answer q Q = e.codebase.answer p Q) ∧
      (∀ x : Query, x.askWith e.codebase q = x.askWith e.codebase p) ∧
      ∀ m w step, perform e.codebase q m w step = perform e.codebase p m w step
  /-- The base classes of classes are declared. -/
  bases : e.codebase.BacksBases
  /-- All answers kept are of declared classes. -/
  kept : e.codebase.BacksKept e.kept
  /-- What is asked for declared classes is answered by declared classes. -/
  answers : ∀ x : Query, x.Backed e.codebase → ∀ found s,
    (x.ask e.codebase).run e.kept = (.ok found, s) → e.codebase.BacksFound found
  /-- Wherever a walk through a module comes to, all that it holds is of declared classes. -/
  walks : ∀ m (steps : List Step) w s,
    (steps.foldlM (perform e.codebase e.codebase.ask m) {}).run e.kept = (.ok w, s) →
      w.Backed e.codebase
  /-- All that work can fail for is a text in a hint that is illegible: it holds the null character
  or halves of surrogate pairs. -/
  faults : ∀ (t : Task) s f, (t.work e.codebase).run e.kept = (.error f, s) →
    ∃ why, f = .unreadable why ∧
      ∃ hint, (hint ∈ t.hints ∨ ∃ d ∈ e.codebase.modules, hint ∈ hintsOf d) ∧
        hint.HoldsIllegible why

/-- An environment has the modules of a codebase, and all that has been found is declared. -/
structure Grown (c : Codebase) (e : Environment) : Prop where
  codebase : ∃ bases, e.codebase = { c with bases }
  bases : e.codebase.BacksBases
  kept : e.codebase.BacksKept e.kept

section

variable {c : Codebase} {e : Environment}

theorem grown_self (c : Codebase) (hbases : c.bases = []) : Grown c ⟨c, []⟩ where
  codebase := ⟨c.bases, rfl⟩
  bases k b hb := by
    rw [Codebase.basesOf, hbases] at hb
    cases hb
  kept _ _ _ hfind := by cases hfind

/-- Whatever is done, all that is found is declared. -/
theorem Grown.carryOut (h : e.Grown c) (hc : c.Coherent) {t : Task} (ht : t.Backed c) :
    (e.carryOut t).Grown c := by
  obtain ⟨⟨bases, hcodebase⟩, hbases, hkept⟩ := h
  obtain ⟨codebase, kept⟩ := e
  obtain rfl : codebase = { c with bases } := hcodebase
  have hwork := finds_work (hc.withBases bases) hbases (Task.backed_withBases ht bases) kept hkept
  unfold Environment.carryOut
  generalize (t.work { c with bases }).run kept = ran at hwork
  obtain ⟨hkept', hfound⟩ := hwork
  obtain ⟨f | codebase, kept'⟩ := ran
  · exact ⟨⟨bases, rfl⟩, hbases, hkept'⟩
  · obtain ⟨bases', rfl, hbases'⟩ := hfound codebase rfl
    exact ⟨⟨bases', rfl⟩, hbases', hkept'⟩

theorem Grown.carryOutAll (h : e.Grown c) (hc : c.Coherent) {tasks : List Task}
    (htasks : ∀ t ∈ tasks, t.Backed c) : (e.carryOutAll tasks).Grown c :=
  List.foldlRecOn tasks _ (motive := Grown c) h fun _ he t ht => he.carryOut hc (htasks t ht)

end

section

variable {sources : List SourceModule} {e : Environment}

/-- Where all that has been found is declared, nothing is missing. -/
theorem Grown.complete (h : e.Grown (ofModules (sources.map extractModule)))
    (hparsed : ∀ m ∈ sources, ∃ source, parseModule source = .ok m.body) : e.Complete := by
  obtain ⟨⟨bases, hcodebase⟩, hbases, hkept⟩ := h
  obtain ⟨c, kept⟩ := e
  have hc : c.Coherent := by
    obtain rfl : c = _ := hcodebase
    exact coherent_ofModules hparsed bases
  have hmodules : c.modules = sources.map extractModule := by rw [show c = _ from hcodebase]; rfl
  constructor
  case statements =>
    intro i d hd p name bases keywords body decorators hmem
    have hsource := List.mem_of_getElem? hd
    rw [hmodules] at hsource
    obtain ⟨m, -, rfl⟩ := List.mem_map.mp hsource
    exact has_of_mem_moduleStatements hd hmem
  case sources => exact hc.statements
  case modules => exact fun k hk => hk.exists_module
  case clauses =>
    intro d hd n hn p hp
    rw [hmodules] at hd
    obtain ⟨m, hm, rfl⟩ := List.mem_map.mp hd
    obtain ⟨source, hsource⟩ := hparsed m hm
    exact isFilled_of_parseModule hsource n hn p hp
  case owners => exact fun b attr s owner => has_of_memberOn?
  case types => exact fun b attr s owner => hc.exists_nested
  case asked =>
    intro q p hq
    have hasks : ∀ Q, c.Asks Q → q.reply Q = p.reply Q := fun Q hQ => hq Q (answerable_of_asks hQ)
    have hR : Congruence fun _ x y => x = y := ⟨sequential_eq, fun _ _ => rfl⟩
    exact ⟨hR.answer hasks, hR.askWith hasks, fun m w step =>
      hR.toSequential.perform hasks m w fun _ _ why _ => hR.throw why⟩
  case bases => exact hbases
  case kept => exact hkept
  case answers =>
    intro x hx found s hrun
    rw [Query.ask_eq] at hrun
    exact (finds_askWith (finds_ask hc) hc hx kept hkept).2 found (congrArg Prod.fst hrun)
  case walks =>
    intro m steps w s hrun
    exact (finds_walk hc m steps kept hkept).2 w (congrArg Prod.fst hrun)
  case faults =>
    intro t s f hrun
    rw [show c.modules = _ from hmodules]
    exact exists_holdsIllegible_of_work ⟨bases, hcodebase⟩ (congrArg Prod.fst hrun)

/-- **Whatever is looked up is there.** Modules have been read, and then anything has been done with
them, in any order and any number of times: questions of all kinds asked, for bindings of declared
classes, base classes looked for, one by one or all of them, and references collected. Then the
tables that are looked into agree with each other, and whatever is done next, nothing that it looks
up is missing. If it fails at all, that is for an illegible text in a hint. -/
theorem complete_carryOutAll
    (hparsed : ∀ m ∈ sources, ∃ source, parseModule source = .ok m.body) {tasks : List Task}
    (htasks : ∀ t ∈ tasks, t.Backed (ofModules (sources.map extractModule))) :
    (carryOutAll ⟨ofModules (sources.map extractModule), []⟩ tasks).Complete :=
  ((grown_self _ rfl).carryOutAll (coherent_ofModules hparsed []) htasks).complete hparsed

/-- A class that a base class declares within it is found through a class that inherits it. -/
theorem complete_carryOutAll_inherited :
    let m := readModule "m" "class A:\n    class B: pass\nclass C(A): pass\nx: C.B\n"
    let C : ClassId := ⟨0, ⟨2, 0⟩⟩
    let e := carryOutAll ⟨ofModules [extractModule m], []⟩
      [.bases, .query (.member (.classObject C false) "B"), .references 0]
    (∀ m' ∈ [m], ∃ source, parseModule source = .ok m'.body) ∧
      (ofModules [extractModule m]).Has C ∧ e.Complete ∧
      (e.export? 0 "x").toOption = some (some (.instanceOf ⟨0, ⟨1, 4⟩⟩)) := by
  intro m C e
  have hparsed : ∀ m' ∈ [m], ∃ source, parseModule source = .ok m'.body :=
    List.forall_mem_singleton.mpr ⟨_, parseModule_readModule (by decide +kernel)⟩
  have hC : (ofModules [extractModule m]).Has C := by
    unfold Has
    decide +kernel
  refine ⟨hparsed, hC, complete_carryOutAll hparsed (fun t ht => ?_), by decide +kernel⟩
  simp only [List.mem_cons, List.not_mem_nil, or_false] at ht
  obtain rfl | rfl | rfl := ht
  · trivial
  · exact (backs_classObject C false).mpr hC
  · trivial

/-- The null character is not all that a question fails for: half of a surrogate pair in a hint ends
it, too, as it should not. -/
theorem faults_not_null_only :
    ¬ ∀ sources : List SourceModule,
      (∀ m ∈ sources, ∃ source, parseModule source = .ok m.body) →
        ∀ (x : Query) (s : Cache) (f : Fault),
          ((x.ask (ofModules (sources.map extractModule))).run s).1 = .error f →
            f = .unreadable .nullCharacter := by
  intro h
  let m := readModule "m" "x: '\\ud800' = 1\n"
  have hparsed : ∀ m' ∈ [m], ∃ source, parseModule source = .ok m'.body :=
    List.forall_mem_singleton.mpr ⟨_, parseModule_readModule (by decide +kernel)⟩
  have hfails : (((Query.exported 0 "x").ask (ofModules [extractModule m])).run []).1 =
      .error (.unreadable (.halves [0xD800])) := by decide +kernel
  cases h [m] hparsed _ [] _ hfails

end

end Environment

end Concordance.Binding
