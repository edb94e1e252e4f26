import Concordance.Binding.References
import Concordance.Proofs.Binding.History

/-!
# Where all hints can be read

The only thing that names and hints can fail for is a hint with a text that cannot be read at all.
Where there is none, all names have an answer, base classes are found and references are collected,
whatever the modules look like otherwise.

## Main definitions

* `hintsOf`: the hints of a module that are looked at
* `Gives`: work that does not fail, and what its results have in common
* `GivesUnless`: work that fails for a text that cannot be read, if at all

## Main results

* `Sequential.perform`: steps of related walks are related
* `Codebase.givesUnless_ask`: every question has an answer
* `gives_resolveBases`, `gives_references`: base classes are found and references collected
-/

namespace Concordance.Binding

open Syntax

/-! ### The hints of a module -/

/-- The hint of a statement of the module level. -/
def hintOfStatement? : Node → Option Hint
  | .annAssign _ (.name ..) hint _ => some (.ofNode hint)
  | _ => none

/-- The hints of a step. -/
def Step.hints : Step → List Hint
  | hinted _ hint _ => [hint]
  | openFunction _ f => f.parameters.map Prod.snd
  | _ => []

/-- The hints of a module that are looked at: on names of the module, on results, fields and
properties of its classes, and on parameters and variables. -/
def hintsOf (d : ModuleDecls) : List Hint :=
  (moduleStatements d.source.body).filterMap hintOfStatement? ++
    (d.classes.flatMap fun k => (k.returns ++ k.annotations).map fun e => .ofNode e.2) ++
    (stepsAll d.source.body).flatMap Step.hints

/-- The hints of a module can all be read. -/
def ModuleReadable (d : ModuleDecls) : Prop := ∀ h ∈ hintsOf d, h.faults = []

instance : DecidablePred ModuleReadable := fun d =>
  inferInstanceAs (Decidable (∀ h ∈ hintsOf d, h.faults = []))

namespace Outline

/-- Every source in an outline has a property. -/
def Every (P : Source → Prop) (o : Outline) : Prop :=
  ∀ name sources, o.names.find? name = some sources → ∀ s ∈ sources, P s

/-- What a statement may enter as a source: the class that it is, its own hint, and anything that is
neither a class nor has a hint. -/
def MayEnter (index : Nat) (stmt : Node) : Source → Prop
  | .classStatement k => k = ⟨index, stmt.position⟩ ∧
    ∃ p name bases keywords body decorators, stmt = .classDef p name bases keywords body decorators
  | .hinted h _ => hintOfStatement? stmt = some h
  | _ => True

variable {o : Outline} {P : Source → Prop}

theorem Every.add (h : o.Every P) (name : String) {s : Source} (hs : P s) :
    (o.add name s).Every P := by
  intro name' sources hfind s' hs'
  rw [Outline.add, Table.find?_alter] at hfind
  by_cases hname : name = name'
  · rw [if_pos hname] at hfind
    obtain rfl := Option.some.inj hfind
    rcases List.mem_append.mp hs' with hs' | hs'
    · cases hbefore : o.names.find? name with
      | none => simp [hbefore] at hs'
      | some before => exact h name before hbefore s' (by simpa [hbefore] using hs')
    · rwa [List.mem_singleton.mp hs']
  · rw [if_neg hname] at hfind
    exact h name' sources hfind s' hs'

theorem Every.foldl {α : Type} {f : Outline → α → Outline}
    (hf : ∀ o a, Every P o → Every P (f o a)) (l : List α) (h : o.Every P) :
    (l.foldl f o).Every P := by
  induction l generalizing o with
  | nil => exact h
  | cons a l ih => exact ih (hf o a h)

section

variable {index : Nat} {stmt : Node} (hs : ∀ s, MayEnter index stmt s → P s)

include hs

theorem Every.addImported (h : o.Every P) (target : Option String) (a : Alias) :
    (Outline.addImported target o a).Every P := by
  cases target with
  | none =>
    rw [Outline.addImported]
    split
    · exact h
    · exact h.add _ (hs _ trivial)
  | some t =>
    rw [Outline.addImported]
    split
    · exact h
    · exact h.add _ (hs _ trivial)

theorem Every.addTarget (h : o.Every P) (value : Designator) (target : Node) :
    (Outline.addTarget value o target).Every P := by
  unfold Outline.addTarget
  split
  · exact h.add _ (hs _ trivial)
  · refine h.foldl (fun o n ho => ?_) _
    split
    · exact ho.add _ (hs _ trivial)
    · exact ho

/-- A statement enters nothing but what it may enter. -/
theorem Every.addStatement (h : o.Every P) (m : SourceModule) :
    (Outline.addStatement m index o stmt).Every P := by
  unfold Outline.addStatement
  split
  · exact h.add _ (hs _ ⟨rfl, _, _, _, _, _, _, rfl⟩)
  · exact h.add _ (hs _ trivial)
  · exact h.foldl (fun o a ho => ho.add _ (hs (.moduleImport _) trivial)) _
  · exact h.foldl (fun o a ho => ho.addImported hs _ a) _
  · exact h.foldl (fun o target ho => ho.addTarget hs _ target) _
  · exact h.add _ (hs _ rfl)
  · exact h

end

/-- The sources of a module are what its statements may enter. -/
theorem every_ofModule {m : SourceModule} {index : Nat}
    (h : ∀ stmt ∈ moduleStatements m.body, ∀ s, MayEnter index stmt s → P s) :
    (ofModule m index).Every P := by
  have hstatements : ∀ stmts : List Node, (∀ stmt ∈ stmts, ∀ s, MayEnter index stmt s → P s) →
      ∀ o : Outline, o.Every P → (stmts.foldl (addStatement m index) o).Every P := by
    intro stmts
    induction stmts with
    | nil => exact fun _ o ho => ho
    | cons stmt rest ih =>
      intro hall o ho
      exact ih (fun s hs => hall s (List.mem_cons_of_mem _ hs)) _
        (ho.addStatement (hall stmt List.mem_cons_self) m)
  exact hstatements _ h {} nofun

/-- The hints of sources are those of the module. -/
theorem every_fault_ofModule (d : ModuleDecls) (index : Nat) :
    (ofModule d.source index).Every fun s =>
      ∀ why ∈ s.faults, ∃ hint ∈ hintsOf d, why ∈ hint.faults := by
  refine every_ofModule fun stmt hstmt s hs why hwhy => ?_
  cases s with
  | hinted hint value =>
    refine ⟨hint, List.mem_append_left _ (List.mem_append_left _ ?_), hwhy⟩
    exact List.mem_filterMap.mpr ⟨stmt, hstmt, hs⟩
  | _ => cases hwhy

end Outline

/-- A hint of a codebase that cannot be read is one of a module. -/
theorem Codebase.HasFault.exists_hint {modules : List ModuleDecls}
    {bases : Table ClassId (List ClassId)} {why : Illegible}
    (h : HasFault { ofModules modules with bases } why) :
    ∃ d ∈ modules, ∃ hint ∈ hintsOf d, why ∈ hint.faults := by
  cases h with
  | @source m name sources s hsources hs hwhy =>
    change ((ofModules modules).outline m).names.find? name = some sources at hsources
    rw [outline, ofModules] at hsources
    dsimp only at hsources
    rw [List.getElem?_mapIdx] at hsources
    cases hd : modules[m]? with
    | none =>
      rw [hd] at hsources
      cases hsources
    | some d =>
      rw [hd] at hsources
      refine ⟨d, List.mem_of_getElem? hd, ?_⟩
      exact Outline.every_fault_ofModule d m name sources hsources s hs why hwhy
  | @member owner k attr n hk hn hwhy =>
    obtain ⟨d, hd, hk⟩ := Option.bind_eq_some_iff.mp hk
    have hmem : (attr, n) ∈ k.returns ++ k.annotations := by
      rcases hn with hn | hn
      · exact List.mem_append_left _ (Table.mem_of_find? hn)
      · exact List.mem_append_right _ (Table.mem_of_find? hn)
    refine ⟨d, List.mem_of_getElem? hd, .ofNode n, ?_, hwhy⟩
    refine List.mem_append_left _ (List.mem_append_right _ (List.mem_flatMap.mpr ⟨k, ?_, ?_⟩))
    · exact List.mem_of_find?_eq_some hk
    · exact List.mem_map.mpr ⟨(attr, n), hmem, rfl⟩

/-! ### Work that does not fail -/

/-- Work never fails, and all its results have something in common. -/
def Gives {α : Type} (P : α → Prop) (x : Resolve α) : Prop := ∀ s, ∃ a, (x.run s).1 = .ok a ∧ P a

/-- Work gives results that have something in common. It fails at most for a text that cannot be
read, and only for what may be wrong with one. -/
def GivesUnless {α : Type} (mayFail : Illegible → Prop) (P : α → Prop) (x : Resolve α) : Prop :=
  ∀ s, match (x.run s).1 with
    | .ok a => P a
    | .error f => ∃ why, f = .unreadable why ∧ mayFail why

section

variable {mayFail : Illegible → Prop} {α β : Type} {P : α → Prop} {P' : β → Prop} {x : Resolve α}

theorem GivesUnless.pure {a : α} (h : P a) : GivesUnless mayFail P (pure a) := fun _ => h

theorem GivesUnless.bind {f : α → Resolve β} (hx : GivesUnless mayFail P x)
    (hf : ∀ a, P a → GivesUnless mayFail P' (f a)) : GivesUnless mayFail P' (x >>= f) := by
  intro s
  have hxs := hx s
  rw [run_bind]
  generalize x.run s = ran at hxs ⊢
  obtain ⟨e | a, s'⟩ := ran
  · exact hxs
  · exact hf a hxs s'

theorem GivesUnless.foldlM {f : β → α → Resolve β} {l : List α}
    (hf : ∀ b, ∀ a ∈ l, P' b → GivesUnless mayFail P' (f b a)) {b : β} (h : P' b) :
    GivesUnless mayFail P' (l.foldlM f b) := by
  induction l generalizing b with
  | nil => exact .pure h
  | cons a l ih =>
    rw [List.foldlM_cons]
    exact (hf b a List.mem_cons_self h).bind fun b' hb' =>
      ih (fun b a' ha' => hf b a' (List.mem_cons_of_mem a ha')) hb'

theorem sequential_givesUnless (mayFail : Illegible → Prop) :
    Sequential fun _ x _ => GivesUnless mayFail (fun _ => True) x where
  pure _ := .pure trivial
  bind hx hf := hx.bind fun a _ => hf a

theorem throws_givesUnless {why : Illegible} (h : mayFail why) :
    Throws why fun _ x _ => GivesUnless mayFail (fun _ => True) x := fun _ => ⟨why, rfl, h⟩

theorem GivesUnless.gives (hx : GivesUnless mayFail P x) (h : ∀ why, ¬ mayFail why) :
    Gives P x := by
  intro s
  have hxs := hx s
  generalize x.run s = ran at hxs ⊢
  obtain ⟨e | a, s'⟩ := ran
  · obtain ⟨why, -, hwhy⟩ := hxs
    exact absurd hwhy (h why)
  · exact ⟨a, rfl, hxs⟩

end

/-! ### Questions -/

namespace Codebase

variable {c : Codebase} {why : Illegible}

/-- Work does not fail for something that may be wrong with a text. -/
def Legible (why : Illegible) {α : Type} (x : Resolve α) : Prop :=
  ∀ s, (x.run s).1 ≠ .error (.unreadable why)

theorem sequential_legible : Sequential fun _ x _ => Legible why x where
  pure a s := nofun
  bind {α β x y f g} hx hf s := by
    rw [run_bind]
    have hxs := hx s
    generalize x.run s = ran at hxs ⊢
    obtain ⟨e | a, s'⟩ := ran
    · exact fun h => hxs (by cases h; rfl)
    · exact hf a s'

theorem legible_reply (hc : ¬ c.HasFault why) (depth : Nat) (asked : Open) (Q : Question) :
    Legible why ((c.questions depth asked).reply Q) := by
  induction depth generalizing asked Q with
  | zero =>
    intro s
    cases Q <;> exact nofun
  | succ depth ih =>
    intro s
    rw [run_reply]
    cases Q.kept? s with
    | some kept => exact nofun
    | none =>
      dsimp only
      split
      · exact nofun
      · have hanswer : Legible why (c.answer (c.questions depth (asked.add Q)) Q) := by
          refine sequential_legible.answer (p := c.questions depth (asked.add Q))
            (fun Q' _ => ih (asked.add Q) Q') Q fun why' hwhy' _ s h => hc ?_
          cases h
          exact hwhy'
        have hs := hanswer s
        generalize (c.answer (c.questions depth (asked.add Q)) Q).run s = ran at hs ⊢
        obtain ⟨e | a, s'⟩ := ran
        · exact fun h => hs (by cases h; rfl)
        · exact nofun

/-- **Every question has an answer**, unless there are hints that cannot be read. -/
theorem givesUnless_ask (houtlined : c.Outlined) {mayFail : Illegible → Prop}
    (hc : ∀ why, c.HasFault why → mayFail why) {Q : Question} (hQ : c.Asks Q) :
    GivesUnless mayFail (fun _ => True) (c.ask.reply Q) := by
  intro s
  have hdeep := unlimited_ask houtlined hQ s
  have hlegible := fun why (hwhy : ¬ c.HasFault why) => legible_reply hwhy c.depth {} Q s
  rw [show c.questions c.depth {} = c.ask from rfl] at hlegible
  generalize (c.ask.reply Q).run s = ran at hdeep hlegible ⊢
  obtain ⟨f | a, s'⟩ := ran
  · cases f with
    | unreadable why =>
      refine ⟨why, rfl, hc why ?_⟩
      by_contra hwhy
      exact hlegible why hwhy rfl
    | tooDeep => exact absurd rfl hdeep
  · trivial

end Codebase

/-! ### Steps -/

theorem Sequential.foldlM {R : ∀ ⦃α : Type⦄, Resolve α → Resolve α → Prop} (hR : Sequential R)
    {α β : Type} {f g : β → α → Resolve β} {l : List α} (hfg : ∀ b, ∀ a ∈ l, R (f b a) (g b a))
    (b : β) : R (l.foldlM f b) (l.foldlM g b) := by
  induction l generalizing b with
  | nil => exact hR.pure b
  | cons a l ih =>
    rw [List.foldlM_cons, List.foldlM_cons]
    exact hR.bind (hfg b a List.mem_cons_self) fun b' =>
      ih (fun b a' ha' => hfg b a' (List.mem_cons_of_mem a ha')) b'

section

variable {R : ∀ ⦃α : Type⦄, Resolve α → Resolve α → Prop} (hR : Sequential R) {c : Codebase}
  {q p : Questions} (hq : ∀ Q, c.Asks Q → R (q.reply Q) (p.reply Q)) (m : Nat) (w : Walk)

include hR hq

theorem Sequential.lookupIn (id : String) : R (lookupIn q m w id) (lookupIn p m w id) := by
  unfold Binding.lookupIn
  split
  · exact hR.pure _
  · exact hq (.ofName m id) trivial

theorem Sequential.resolveIn (d : Designator) : R (resolveIn c q m w d) (resolveIn c p m w d) :=
  hR.resolve hq (hR.lookupIn hq m w) w.enclosing d

theorem Sequential.meetMember (position : Position) (line : Nat) (value : Designator)
    (attr : String) (use : Use) (updates : Bool) :
    R (meetMember c q m w position line value attr use updates)
      (meetMember c p m w position line value attr use updates) := by
  refine hR.bind (hR.resolveIn hq m w value) fun found => ?_
  cases found with
  | none => exact hR.pure _
  | some b =>
    dsimp only
    split
    · exact hR.pure _
    · split
      · exact hR.bind (hR.memberOf hq _ attr) fun found => hR.pure _
      · exact hR.pure _

theorem Sequential.meetCall (line : Nat) (callee : Designator) :
    R (meetCall c q m w line callee) (meetCall c p m w line callee) := by
  refine hR.bind (hR.resolveIn hq m w callee) fun found => ?_
  split
  · split <;> exact hR.pure _
  · exact hR.pure _

theorem Sequential.bindParameters {f : Signature}
    (hf : ∀ e ∈ f.parameters, ∀ why ∈ e.2.faults, Throws why R) :
    R (bindParameters c q m w f) (bindParameters c p m w f) := by
  refine hR.bind (hR.foldlM (fun t e he => ?_) _) fun named => hR.pure _
  refine hR.bind (hR.resolveHint hq (hR.lookupIn hq m w) ?_) fun found => hR.pure _
  exact hf e (List.mem_of_mem_drop he)

theorem Sequential.importedName (level : Nat) (source : Option String) (target : String) :
    R (importedName c q m level source target) (importedName c p m level source target) := by
  unfold Binding.importedName
  split
  · exact hR.pure _
  · split
    · exact hR.importFrom hq _ _ target
    · exact hR.pure _

/-- **Steps of related walks are related**, if failures for their hints are. -/
theorem Sequential.perform {step : Step}
    (hs : ∀ h ∈ step.hints, ∀ why ∈ h.faults, Throws why R) :
    R (perform c q m w step) (perform c p m w step) := by
  cases step with
  | name line id use =>
    cases use with
    | load => exact hR.bind (hR.lookupIn hq m w id) fun found => hR.pure _
    | store => exact hR.pure _
    | delete => exact hR.pure _
  | member position line value attr use updates =>
    exact hR.meetMember hq m w position line value attr use updates
  | call line callee => exact hR.meetCall hq m w line callee
  | assign names value => exact hR.bind (hR.resolveIn hq m w value) fun found => hR.pure _
  | hinted name hint value =>
    refine hR.bind (hR.resolveTyped hq (hR.lookupIn hq m w) w.enclosing ?_ value) fun b => hR.pure _
    exact hs hint List.mem_cons_self
  | bindOther name => exact hR.pure _
  | moduleImport name target => exact hR.pure _
  | nameImport name level source target =>
    rw [Binding.perform, Binding.perform]
    split
    · exact hR.pure _
    · exact hR.bind (hR.importedName hq m level source target) fun found => hR.pure _
  | caught name type =>
    cases type with
    | none => exact hR.bind (hR.pure none) fun found => hR.pure _
    | some d => exact hR.bind (hR.resolveIn hq m w d) fun found => hR.pure _
  | openClass name position => exact hR.pure _
  | openFunction name f =>
    refine hR.bind (hR.bindParameters hq m w fun e he => ?_) fun parameters => hR.pure _
    exact hs e.2 (List.mem_map_of_mem he)
  | openScope names => exact hR.pure _
  | closeClass => exact hR.pure _
  | closeScope => exact hR.pure _

end

/-! ### Loads -/

section

variable {modules : List ModuleDecls} {mayFail : Illegible → Prop}
  (h : ∀ d ∈ modules, ∀ hint ∈ hintsOf d, ∀ why ∈ hint.faults, mayFail why) {c : Codebase}
  (hc : ∃ bases, c = { Codebase.ofModules modules with bases })

include h hc

theorem givesUnless_ask_ofModules (Q : Question) (hQ : c.Asks Q) :
    GivesUnless mayFail (fun _ => True) (c.ask.reply Q) := by
  obtain ⟨bases, rfl⟩ := hc
  refine Codebase.givesUnless_ask (Codebase.outlined_ofModules modules bases)
    (fun why hwhy => ?_) hQ
  obtain ⟨d, hd, hint, hhint, hwhy⟩ := hwhy.exists_hint
  exact h d hd hint hhint why hwhy

/-- Something is asked. -/
theorem givesUnless_query {x : Query}
    (hx : ∀ hint ∈ x.hints, ∀ why ∈ hint.faults, mayFail why) :
    GivesUnless mayFail (fun _ => True) (x.ask c) := by
  rw [Query.ask_eq]
  exact (sequential_givesUnless mayFail).askWith (p := c.ask) (givesUnless_ask_ofModules h hc)
    fun hint hhint why hwhy => throws_givesUnless (hx hint hhint why hwhy)

/-- References are collected in a module. -/
theorem givesUnless_references (m : Nat) :
    GivesUnless mayFail (fun _ => True) (references c m) := by
  have hsteps : ∀ step ∈ stepsAll (((c.modules[m]?).map fun d => d.source.body).getD []),
      ∀ hint ∈ step.hints, ∀ why ∈ hint.faults, mayFail why := by
    intro step hstep hint hhint
    obtain ⟨bases, rfl⟩ := hc
    cases hd : modules[m]? with
    | none => simp [Codebase.ofModules, hd, stepsAll] at hstep
    | some d =>
      refine h d (List.mem_of_getElem? hd) hint (List.mem_append_right _ ?_)
      exact List.mem_flatMap.mpr ⟨step, by simpa [Codebase.ofModules, hd] using hstep, hhint⟩
  refine GivesUnless.bind (P := fun _ => True)
    (GivesUnless.foldlM (fun w step hstep _ => ?_) trivial) fun w _ => .pure trivial
  exact (sequential_givesUnless mayFail).perform (p := c.ask) (givesUnless_ask_ofModules h hc) m w
    fun hint hhint why hwhy => throws_givesUnless (hsteps step hstep hint hhint why hwhy)

/-- A base class is looked for, and nothing else changes. -/
theorem givesUnless_resolveBase (k : ClassId) (expr : Node) :
    GivesUnless mayFail (fun c => ∃ bases, c = { Codebase.ofModules modules with bases })
      (c.resolveBase k expr) := by
  have hask := givesUnless_ask_ofModules h hc
  have hlookup : ∀ id, GivesUnless mayFail (fun _ => True) (c.ask.exported k.moduleIndex id) :=
    fun id => hask (.ofName k.moduleIndex id) trivial
  refine GivesUnless.bind (P := fun _ => True)
    ((sequential_givesUnless mayFail).resolve (p := c.ask) (l := c.ask.exported k.moduleIndex)
      hask hlookup none _) fun found _ => ?_
  obtain ⟨bases, rfl⟩ := hc
  split
  · split
    · exact .pure ⟨bases, rfl⟩
    · exact .pure ⟨_, rfl⟩
  · exact .pure ⟨bases, rfl⟩

/-- Base classes are found, and nothing else changes. -/
theorem givesUnless_resolveBases :
    GivesUnless mayFail (fun c => ∃ bases, c = { Codebase.ofModules modules with bases })
      c.resolveBases := by
  refine GivesUnless.foldlM (fun c k _ hc => ?_) hc
  split
  · exact GivesUnless.foldlM (fun c expr _ hc => givesUnless_resolveBase h hc k expr) hc
  · exact .pure hc

end

section

variable {modules : List ModuleDecls} (h : ∀ d ∈ modules, ModuleReadable d)

include h

theorem not_unreadable : ∀ d ∈ modules, ∀ hint ∈ hintsOf d, ∀ _ ∈ hint.faults, False :=
  fun d hd hint hhint _ hwhy => List.not_mem_nil (h d hd hint hhint ▸ hwhy)

/-- Where all hints can be read, references are collected in every module. -/
theorem gives_references {c : Codebase}
    (hc : ∃ bases, c = { Codebase.ofModules modules with bases }) (m : Nat) :
    Gives (fun _ => True) (references c m) :=
  (givesUnless_references (not_unreadable h) hc m).gives fun _ => id

/-- Where all hints can be read, base classes are found. -/
theorem gives_resolveBases :
    Gives (fun c => ∃ bases, c = { Codebase.ofModules modules with bases })
      (Codebase.ofModules modules).resolveBases :=
  (givesUnless_resolveBases (not_unreadable h) ⟨[], rfl⟩).gives fun _ => id

end

end Concordance.Binding
