import Concordance.Binding.References
import Concordance.Proofs.Binding.Questions
import Concordance.Proofs.Query.Selecting

/-!
# Recorded references can be queried

A walk through a module records ids of symbols, and it comes by a symbol in two ways: as that of a
declared class, or as a member that such a class declares itself, whichever class the member was
looked up on. So every id that is recorded belongs to a declared class, whatever names are bound to,
whichever base classes have been found and whatever has been kept.

A query for the class, or for the member, selects that id if the class is in effect. Another class
may be recorded too: a reference in a class that a later statement of its name replaces is to that
class, but no query sees it.

## Main definitions

* `Yields`: what all results of work have
* `Belongs`: an id of a declared class, or of what a query for it can ask for

## Main results

* `belongs_of_references`: recorded ids belong to declared classes
* `recorded_selected_of_inEffect`: those of classes in effect are selected by their queries
-/

namespace Concordance.Binding

open Syntax Concordance.Query

/-! ### Work that ends with something -/

section

variable {α β : Type} {P : α → Prop} {Q : β → Prop}

/-- Whatever work ends with, has a property. -/
def Yields (x : Resolve α) (P : α → Prop) : Prop := ∀ s a s', x.run s = (.ok a, s') → P a

theorem yields_pure {a : α} (h : P a) : Yields (pure a) P := by
  rintro s _ s' ⟨⟩
  exact h

theorem yields_anything (x : Resolve α) : Yields x fun _ => True := fun _ _ _ _ => trivial

theorem Yields.bind {x : Resolve α} {f : α → Resolve β} (hx : Yields x P)
    (hf : ∀ a, P a → Yields (f a) Q) : Yields (x >>= f) Q := by
  intro s b s' h
  rw [run_bind] at h
  cases hrun : x.run s with
  | mk r s₁ =>
    rw [hrun] at h
    cases r with
    | error e => cases h
    | ok a => exact hf a (hx s a s₁ hrun) s₁ b s' h

/-- Nothing needs to be known of work before. -/
theorem yields_bind {x : Resolve α} {f : α → Resolve β} (hf : ∀ a, Yields (f a) Q) :
    Yields (x >>= f) Q :=
  (yields_anything x).bind fun a _ => hf a

theorem yields_foldlM {f : α → β → Resolve α} {l : List β} {a : α} (ha : P a)
    (hf : ∀ a b, P a → Yields (f a b) P) : Yields (l.foldlM f a) P := by
  induction l generalizing a with
  | nil => exact yields_pure ha
  | cons b rest ih =>
    rw [List.foldlM_cons]
    exact (hf a b ha).bind fun a ha => ih ha

end

/-! ### Ids of declared classes -/

/-- An id of a class that some modules declare, or of what a query for it can ask for. -/
def Belongs (modules : List ModuleDecls) (id : String) : Prop :=
  ∃ m ∈ modules, ∃ d ∈ m.classes, ∃ s f kind, d.symbol.Asks s f kind ∧ s.id = id

section

variable {c : Codebase}

theorem Codebase.exists_of_classDecl? {k : ClassId} {d : ClassDecl} (h : c.classDecl? k = some d) :
    ∃ m ∈ c.modules, d ∈ m.classes := by
  obtain ⟨m, hm, hd⟩ := Option.bind_eq_some_iff.mp h
  exact ⟨m, List.mem_of_getElem? hm, List.mem_of_find?_eq_some hd⟩

theorem belongs_of_classSymbol? {k : ClassId} {s : Symbol} (h : c.classSymbol? k = some s) :
    Belongs c.modules s.id := by
  obtain ⟨d, hd, rfl⟩ := Option.map_eq_some_iff.mp h
  obtain ⟨m, hm, hmem⟩ := Codebase.exists_of_classDecl? hd
  exact ⟨m, hm, d, hmem, _, _, _, .itself, rfl⟩

variable (hsound : ∀ m ∈ c.modules, ∀ d ∈ m.classes, d.Sound m.classes)

include hsound

/-- What a class itself declares under a name is a member of its symbol. -/
theorem exists_of_ownMember? {name : String} {k : ClassId} {s : Symbol}
    (h : c.ownMember? name k = some s) :
    ∃ m ∈ c.modules, ∃ d ∈ m.classes, s ∈ d.symbol.members ∧ d.Sound m.classes := by
  obtain ⟨d, hd, hown⟩ := Option.bind_eq_some_iff.mp h
  obtain ⟨m, hm, hmem⟩ := Codebase.exists_of_classDecl? hd
  exact ⟨m, hm, d, hmem, (hsound m hm d hmem).own name s hown, hsound m hm d hmem⟩

/-- The id of a member that is no property. -/
theorem belongs_of_ownMember? {name : String} {k : ClassId} {s : Symbol}
    (h : c.ownMember? name k = some s) (hs : s.kind ≠ .property) : Belongs c.modules s.id := by
  obtain ⟨m, hm, d, hd, hmem, hsound⟩ := exists_of_ownMember? hsound h
  cases hkind : s.kind with
  | type =>
    obtain ⟨d', hd', rfl⟩ := (hsound.member s hmem).2 hkind
    exact ⟨m, hm, d', hd', _, _, _, .itself, rfl⟩
  | method => exact ⟨m, hm, d, hd, s, _, _, .member (k := .method) hmem hkind nofun, rfl⟩
  | field => exact ⟨m, hm, d, hd, s, _, _, .member (k := .field) hmem hkind nofun, rfl⟩
  | property => exact absurd hkind hs

/-- The id of an accessor of a member. -/
theorem belongs_of_usedAccessors {name : String} {k : ClassId} {p a : Symbol}
    (h : c.ownMember? name k = some p) {use : Use} {updates : Bool}
    (ha : a ∈ usedAccessors p use updates) : Belongs c.modules a.id := by
  obtain ⟨m, hm, d, hd, hmem, -⟩ := exists_of_ownMember? hsound h
  have haccessor : p.getter = some a ∨ p.setter = some a := by
    cases use with
    | load => exact .inl (Option.mem_toList.mp ha)
    | store =>
      rcases List.mem_append.mp ha with ha | ha
      · split at ha
        · exact .inl (Option.mem_toList.mp ha)
        · cases ha
      · exact .inr (Option.mem_toList.mp ha)
    | delete => cases ha
  rcases haccessor with hget | hset
  · exact ⟨m, hm, d, hd, a, _, _, .getter hmem hget, rfl⟩
  · exact ⟨m, hm, d, hd, a, _, _, .setter hmem hset, rfl⟩

end

/-! ### Walks -/

namespace Walk

/-- Every reference that has been found is to an id of a declared class. -/
def Belongs (modules : List ModuleDecls) (w : Walk) : Prop :=
  ∀ r ∈ w.found, Binding.Belongs modules r.1

variable {modules : List ModuleDecls} {w : Walk}

@[simp] theorem found_bind (name : String) (b : Option Denotation) (w : Walk) :
    (w.bind name b).found = w.found := by
  rw [bind]
  split <;> rfl

@[simp] theorem found_openScope (s : Scope) (w : Walk) : (w.openScope s).found = w.found := rfl

@[simp] theorem found_closeScope (w : Walk) : w.closeScope.found = w.found := rfl

theorem Belongs.of_found {w' : Walk} (h : w.Belongs modules) (hfound : w'.found = w.found) :
    w'.Belongs modules := by
  rwa [Belongs, hfound]

theorem Belongs.bind (h : w.Belongs modules) (name : String) (b : Option Denotation) :
    (w.bind name b).Belongs modules :=
  h.of_found (found_bind name b w)

theorem Belongs.record (h : w.Belongs modules) {s : Symbol} (hs : Binding.Belongs modules s.id)
    (line : Nat) : (w.record s line).Belongs modules :=
  List.forall_mem_cons.mpr ⟨hs, h⟩

end Walk

section

variable {c : Codebase} {q : Questions} {m : Nat} {w : Walk}

theorem belongs_recordClass (h : w.Belongs c.modules) (k : Option ClassId) (line : Nat) :
    (recordClass c k line w).Belongs c.modules := by
  rw [recordClass]
  split
  · rename_i s hs
    obtain ⟨k, -, hs⟩ := Option.bind_eq_some_iff.mp hs
    exact h.record (belongs_of_classSymbol? hs) line
  · exact h

variable (hsound : ∀ m ∈ c.modules, ∀ d ∈ m.classes, d.Sound m.classes)

include hsound

theorem belongs_recordMember (h : w.Belongs c.modules) {name : String} {k : ClassId} {s : Symbol}
    (hs : c.ownMember? name k = some s) (position : Position) (line : Nat) (attr : String)
    (use : Use) (updates : Bool) :
    (recordMember c m s position line attr use updates w).Belongs c.modules := by
  rw [recordMember]
  split
  · refine List.foldlRecOn _ _ (motive := Walk.Belongs c.modules) h fun w hw a ha => ?_
    exact hw.record (belongs_of_usedAccessors hsound hs ha) line
  · rename_i hkind
    split
    · exact h
    · exact h.record (belongs_of_ownMember? hsound hs (by simp [hkind])) line
  · rename_i hproperty _
    exact h.record (belongs_of_ownMember? hsound hs hproperty) line

theorem belongs_meetMember (h : w.Belongs c.modules) (position : Position) (line : Nat)
    (value : Designator) (attr : String) (use : Use) (updates : Bool) :
    Yields (meetMember c q m w position line value attr use updates) (Walk.Belongs c.modules) := by
  refine yields_bind fun b => ?_
  split
  · exact yields_pure h
  · split
    · rename_i s owner hfound
      exact yields_pure (belongs_recordMember hsound h
        (Codebase.ownMember?_of_memberOn? hfound) position line attr use updates)
    · split
      · exact yields_bind fun found => yields_pure (belongs_recordClass h _ line)
      · exact yields_pure h

theorem belongs_meetCall (h : w.Belongs c.modules) (line : Nat) (callee : Designator) :
    Yields (meetCall c q m w line callee) (Walk.Belongs c.modules) := by
  refine yields_bind fun b => ?_
  split
  · split
    · rename_i s owner hfound
      refine yields_pure ?_
      split
      · rename_i hkind
        exact h.record (belongs_of_ownMember? hsound (Codebase.ownMember?_of_searchMember hfound)
          (by simp [hkind])) line
      · exact h
    · exact yields_pure h
  · exact yields_pure h

/-- A step of a walk records nothing but ids of declared classes. -/
theorem belongs_perform (h : w.Belongs c.modules) (step : Step) :
    Yields (perform c q m w step) (Walk.Belongs c.modules) := by
  cases step with
  | name line id use =>
    cases use with
    | load => exact yields_bind fun b => yields_pure (belongs_recordClass h _ line)
    | store => exact yields_pure (h.bind id none)
    | delete => exact yields_pure (h.bind id none)
  | member position line value attr use updates =>
    exact belongs_meetMember hsound h position line value attr use updates
  | call line callee => exact belongs_meetCall hsound h line callee
  | assign names value =>
    refine yields_bind fun b => yields_pure ?_
    exact List.foldlRecOn _ _ (motive := Walk.Belongs c.modules) h fun w hw name _ =>
      hw.bind name _
  | hinted name hint value => exact yields_bind fun b => yields_pure (h.bind name _)
  | bindOther name => exact yields_pure (h.bind name none)
  | moduleImport name target => exact yields_pure (h.bind name _)
  | nameImport name level source target =>
    rw [perform]
    split
    · exact yields_pure h
    · exact yields_bind fun b => yields_pure (h.bind name _)
  | caught name type =>
    cases type with
    | none => exact yields_bind fun b => yields_pure (h.bind name _)
    | some d => exact yields_bind fun b => yields_pure (h.bind name _)
  | openClass name position =>
    exact yields_pure ((h.bind name _).of_found rfl)
  | openFunction name f =>
    exact yields_bind fun parameters => yields_pure ((h.bind name none).of_found rfl)
  | openScope names => exact yields_pure (h.of_found rfl)
  | closeClass => exact yields_pure (h.of_found rfl)
  | closeScope => exact yields_pure (h.of_found rfl)

/-- So does a walk through a module. -/
theorem belongs_of_references (i : Nat) :
    Yields (references c i) fun found => ∀ r ∈ found, Belongs c.modules r.1 := by
  have hwalk : Yields ((stepsAll (((c.modules[i]?).map fun d => d.source.body).getD [])).foldlM
      (perform c c.ask i) {}) (Walk.Belongs c.modules) :=
    yields_foldlM (List.forall_mem_nil _) fun w step hw => belongs_perform hsound hw step
  refine hwalk.bind fun w hw => yields_pure fun r hr => hw r (List.mem_reverse.mp hr)

end

/-! ### Queries for recorded ids -/

/-- **Recorded references can be queried.** Modules of different names are read, in one project.
Then every id that a walk through any of them records belongs to a class that one of them declares,
whichever base classes have been found and whatever answers have been kept. And for every class it
belongs to that is in effect, the query for it ends, in a graph with the types of the modules, and
selects a symbol of that id. -/
theorem recorded_selected_of_inEffect {σ : Type} {modules : List SourceModule} {project : String}
    (hproject : ∀ m ∈ modules, m.project = project)
    (hnames : (modules.map SourceModule.name).Nodup)
    (hparsed : ∀ m ∈ modules, ∃ source, parseModule source = .ok m.body) {c : Codebase}
    (hc : c.modules = modules.map extractModule) {i : Nat} {before after : Cache}
    {found : List (String × Nat)} (h : (references c i).run before = (.ok found, after))
    {g : Graph} (hg : g.projects.flatMap Project.declarations = typeSymbolsOf modules) :
    ∀ r ∈ found,
      (∃ m ∈ modules, ∃ d ∈ (extractModule m).classes, ∃ s f kind,
        d.symbol.Asks s f kind ∧ s.id = r.1) ∧
      ∀ m ∈ modules, ∀ d, m.InEffect d → ∀ s f kind, d.symbol.Asks s f kind → s.id = r.1 →
        ∃ symbols, (meant g f kind : Metered σ _).Ends (.ok symbols) ∧
          r.1 ∈ symbols.map Symbol.id := by
  have hsound : ∀ m ∈ c.modules, ∀ d ∈ m.classes, d.Sound m.classes := by
    intro m hm
    rw [hc] at hm
    obtain ⟨m, hmem, rfl⟩ := List.mem_map.mp hm
    obtain ⟨source, hsource⟩ := hparsed m hmem
    exact SourceModule.sound_of_mem_classes (written_of_parseModule hsource)
  intro r hr
  constructor
  · obtain ⟨m, hm, d, hd, hasks⟩ := belongs_of_references hsound i before found after h r hr
    rw [hc] at hm
    obtain ⟨m, hmem, rfl⟩ := List.mem_map.mp hm
    exact ⟨m, hmem, d, hd, hasks⟩
  · rintro m hm d hd s f kind hasks hid
    rw [← hid]
    exact exists_meant_of_inEffect hproject hnames hparsed hg hm hd hasks

/-- A module of a source that is read. -/
def readModule (name source : String) : SourceModule :=
  { name, project := "p", body := (parseModule source).toOption.getD [] }

theorem parseModule_readModule {name source : String}
    (h : (parseModule source).toOption.isSome) :
    parseModule source = .ok (readModule name source).body := by
  rw [readModule]
  cases hparse : parseModule source with
  | error e =>
    rw [hparse] at h
    cases h
  | ok body => rfl

/-- A graph of one project with some modules. -/
def graphOf (modules : List SourceModule) : Graph :=
  { projects := [{ name := .string "p", declarations := typeSymbolsOf modules }] }

theorem declarations_graphOf (modules : List SourceModule) :
    (graphOf modules).projects.flatMap Project.declarations = typeSymbolsOf modules :=
  List.append_nil _

/-- A method that is called on its receiver is recorded, and selected by its query. -/
theorem recorded_selected_of_inEffect_method :
    let source := "class A:\n    def f(self):\n        self.f()\n"
    let m := readModule "m" source
    let id := "p/m:A.f#method"
    (∀ m' ∈ [m], m'.project = "p") ∧ ([m].map SourceModule.name).Nodup ∧
      parseModule source = .ok m.body ∧
      ((references (.ofModules [extractModule m]) 0).run []).1.toOption = some [(id, 2)] ∧
      ∃ d, m.InEffect d ∧
        ∃ symbols, (meant (graphOf [m]) ⟨"A", some "m", some "f", .both⟩ (some .method) :
          Metered Unit _).Ends (.ok symbols) ∧ id ∈ symbols.map Symbol.id := by
  intro source m id
  have hproject : ∀ m' ∈ [m], m'.project = "p" := List.forall_mem_singleton.mpr rfl
  have hnames : ([m].map SourceModule.name).Nodup := by simp
  have hparsed : parseModule source = .ok m.body := parseModule_readModule (by decide +kernel)
  have hfound : ((references (.ofModules [extractModule m]) 0).run []).1.toOption =
      some [(id, 2)] := by decide +kernel
  have hshape : m.statements.map (fun x => x.all.map fun d =>
      ((d.symbol.name, d.symbol.home), d.symbol.members.map fun s => ((s.id, s.name), s.kind))) =
        [[(("A", "m"), [((id, "f"), .method)])]] := by decide +kernel
  obtain ⟨x, hx, hclasses⟩ := List.map_eq_singleton_iff.mp hshape
  obtain ⟨d, hd, hclass⟩ := List.map_eq_singleton_iff.mp hclasses
  obtain ⟨hlabel, hmembers⟩ := Prod.mk.inj hclass
  obtain ⟨s, hs, hmember⟩ := List.map_eq_singleton_iff.mp hmembers
  obtain ⟨hnamed, hkind⟩ := Prod.mk.inj hmember
  have heffect : m.InEffect d := by
    refine ⟨⟨x, ⟨[], [], hx, nofun⟩, hd ▸ List.mem_singleton_self d⟩, fun y hy d' hd' _ => ?_⟩
    obtain rfl := List.mem_singleton.mp (hx ▸ hy.mem)
    exact List.mem_singleton.mp (hd ▸ hd')
  have hasks : d.symbol.Asks s ⟨"A", some "m", some "f", .both⟩ (some .method) := by
    obtain ⟨hname, hhome⟩ := Prod.mk.inj hlabel
    rw [← hname, ← hhome, ← (Prod.mk.inj hnamed).2]
    exact .member (hs ▸ List.mem_singleton_self s) hkind nofun
  refine ⟨hproject, hnames, hparsed, hfound, d, heffect, ?_⟩
  rcases hrun : (references (.ofModules [extractModule m]) 0).run [] with ⟨e | found, after⟩
  · rw [hrun] at hfound
    cases hfound
  · rw [hrun] at hfound
    obtain rfl : found = [(id, 2)] := Option.some.inj hfound
    exact (recorded_selected_of_inEffect hproject hnames
      (List.forall_mem_singleton.mpr ⟨source, hparsed⟩) rfl hrun (declarations_graphOf [m])
      (id, 2) List.mem_cons_self).2 m List.mem_cons_self d heffect s _ _ hasks
        (Prod.mk.inj hnamed).1

/-- Not every recorded id is selected by some query: a class refers to itself although a later
statement of its name replaces it, and no query sees it. -/
theorem not_always_selected :
    ¬ ∀ (modules : List SourceModule) (project : String),
      (∀ m ∈ modules, m.project = project) → (modules.map SourceModule.name).Nodup →
      (∀ m ∈ modules, ∃ source, parseModule source = .ok m.body) →
      ∀ (c : Codebase) (cache : Cache),
        (Codebase.ofModules (modules.map extractModule)).resolveBases.run [] = (.ok c, cache) →
        ∀ (i : Nat) (before after : Cache) (found : List (String × Nat)),
          (references c i).run before = (.ok found, after) →
          ∀ r ∈ found, ∃ f kind symbols,
            (meant (graphOf modules) f kind : Metered Unit _).Ends (.ok symbols) ∧
              r.1 ∈ symbols.map Symbol.id := by
  intro h
  let source := "class A:\n    def f(self):\n        self.f()\nclass A:\n    pass\n"
  let m := readModule "m" source
  let id := "p/m:A.f#method"
  have hparsed : parseModule source = .ok m.body := parseModule_readModule (by decide +kernel)
  have hbases : (((Codebase.ofModules [extractModule m]).resolveBases).run []).1.toOption.map
      (fun c => ((references c 0).run []).1.toOption) = some (some [(id, 2)]) := by
    decide +kernel
  have hwalk : ((typeSymbolsOf [m]).flatMap Symbol.walk).map
      (fun t => (t.id, t.members.length)) = [("p/m:A", 0)] := by
    decide +kernel
  have htypes (f : Query.Filter) : ∀ t ∈ typesNamed (graphOf [m]) f, t.id ≠ id ∧ t.members = [] := by
    intro t ht
    have hmem := (List.mem_filter.mp ((firstOfEach_sublist _ _).subset ht)).1
    have hdeclared : (graphOf [m]).projects.flatMap (fun p => p.declarations.flatMap Symbol.walk) =
        (typeSymbolsOf [m]).flatMap Symbol.walk := List.append_nil _
    rw [hdeclared] at hmem
    have hentry := List.mem_map_of_mem (f := fun t : Symbol => (t.id, t.members.length)) hmem
    rw [hwalk, List.mem_singleton, Prod.mk.injEq] at hentry
    exact ⟨by rw [hentry.1]; decide, List.length_eq_zero_iff.mp hentry.2⟩
  rcases hresolved : (Codebase.ofModules [extractModule m]).resolveBases.run [] with
    ⟨e | c, cache⟩
  · rw [hresolved] at hbases
    cases hbases
  rw [hresolved] at hbases
  rcases hrun : (references c 0).run [] with ⟨e | found, after⟩
  · simp [Except.toOption, hrun] at hbases
  obtain rfl : found = [(id, 2)] := by simpa [Except.toOption, hrun] using hbases
  obtain ⟨f, kind, symbols, hends, hmem⟩ := h [m] "p" (List.forall_mem_singleton.mpr rfl)
    (by simp) (List.forall_mem_singleton.mpr ⟨source, hparsed⟩) c cache hresolved 0 [] after _ hrun
    (id, 2) List.mem_cons_self
  obtain rfl : symbols = symbolsNamed (graphOf [m]) f kind :=
    symbols_of_meant rfl (hends {} () rfl).1
  obtain ⟨s, hs, hid⟩ := List.mem_map.mp hmem
  cases kind with
  | none => exact (htypes f s hs).1 hid
  | some k =>
    obtain ⟨t, ht, hs⟩ := List.mem_flatMap.mp ((firstOfEach_sublist _ _).subset hs)
    rw [Query.Filter.membersOf, (htypes f t ht).2] at hs
    cases hs

end Concordance.Binding
