import Concordance.Proofs.Binding.Chains
import Concordance.Proofs.Binding.Receivers

/-!
# Classes under their own names

When a name is met that denotes a class, a reference to the class is recorded if the name is one of
the class itself, and none if a variable holds the class. Which of the two it is depends on how the
name was bound. In a scope a step of the walk bound it: a class statement, an import, or something
that holds a value. Otherwise it is a name of the module. Imports lead on into other modules, from
name to name, and the reference is recorded if and only if no variable is on the way.

## Main definitions

* `Step.holdsValue`: the steps by which a variable comes to hold a class
* `StepReaches`, `SeenBy`: the ways to what a step binds, and to what a walk finds

## Main results

* `bindsClass_of_perform`: what a step can bind a class by
* `exists_way_of_found`, `aliased_iff_of_seenBy`: there is a way, and whether a variable is on it
* `recorded_iff_variable_notMem`: a class is recorded under its own names
-/

namespace Concordance.Binding

open Codebase Syntax

/-! ### Steps that bind classes -/

/-- A step that binds names to what a value denotes: an assignment, a hint, or parameters. -/
def Step.holdsValue : Step → Bool
  | assign .. => true
  | hinted .. => true
  | openFunction .. => true
  | _ => false

/-- What a step binds a name to a class by, if not by an import: a class statement, or a value. -/
inductive BindsClass (c : Codebase) (m : Nat) (n : String) (k : ClassId) : Step → Bool → Prop
  | classStatement {position : Position} (hk : declaredAt? c m position = some k) :
      BindsClass c m n k (.openClass n position) false
  | value {s : Step} (hs : s.holdsValue = true) : BindsClass c m n k s true

section

variable {c : Codebase} {q : Questions} {m : Nat} {n : String} {k : ClassId} {aliased : Bool}
  {scope : Scope}

theorem aliased_of_ownClass? (h : Denotation.ownClass? (.classObject k aliased) = none) :
    aliased = true := by
  cases aliased with
  | false => cases h
  | true => rfl

/-- Parameters hold what is no class under its own name. -/
theorem aliased_of_covers {names : List String} {t : Table String Denotation}
    (h : Covers n names t) (hb : t.find? n = some (.classObject k aliased)) : aliased = true := by
  rw [Covers] at h
  split at h
  · obtain ⟨b, hfind, hclass⟩ := h
    obtain rfl := Option.some.inj (hfind.symm.trans hb)
    exact aliased_of_ownClass? hclass
  · rw [h] at hb
    cases hb

/-- What is bound to nothing that is followed is no class. -/
theorem ne_classObject_foldl_insert {names : List String} {t : Table String Denotation}
    (ht : t.find? n ≠ some (.classObject k aliased)) :
    (names.foldl (fun t name => t.insert name .other) t).find? n ≠
      some (.classObject k aliased) := by
  induction names generalizing t with
  | nil => exact ht
  | cons name rest ih =>
    refine ih ?_
    rw [Table.find?_insert]
    split
    · rintro ⟨⟩
    · exact ht

/-- What a step can bind a class by in the scope that it opens. -/
theorem bindsClass_of_opened (w : Walk) {s : Step} (hn : n ∈ s.opened) :
    Yields (perform c q m w s) fun v => ∀ scope, v.scopes[0]? = some scope →
      scope.bindings.find? n = some (.classObject k aliased) → BindsClass c m n k s aliased := by
  cases s with
  | openFunction name f =>
    refine (covers_bindParameters n c q m w f).bind fun t ht => yields_pure ?_
    rintro scope ⟨⟩ hfind
    rw [aliased_of_covers ht hfind]
    exact .value rfl
  | openScope names =>
    refine yields_pure ?_
    rintro scope ⟨⟩ hfind
    exact absurd hfind (ne_classObject_foldl_insert nofun)
  | _ => cases hn

/-- What a step can bind a class by in the scope that it is taken in, if it is no import. -/
theorem bindsClass_of_bound (w : Walk) {s : Step} (hs : s.by = .value) (hn : n ∈ s.bound) :
    Yields (perform c q m w s) fun v => ∀ scope,
      v.scopes[s.scopeIndex false]? = some scope →
      scope.bindings.find? n = some (.classObject k aliased) → BindsClass c m n k s aliased := by
  have hother (names : List String) {b : Option Denotation} {u : Walk}
      (hb : ∀ k aliased, b.getD .other ≠ .classObject k aliased) (hn : n ∈ names) :
      ∀ scope, (names.foldl (fun w name => w.bind name b) u).scopes[0]? = some scope →
        scope.bindings.find? n = some (.classObject k aliased) → BindsClass c m n k s aliased :=
    fun scope hscope hfind => absurd
      (Option.some.inj ((find?_of_foldl_bind names hn hscope).symm.trans hfind)) (hb k aliased)
  have hnone : ∀ k aliased, (none : Option Denotation).getD .other ≠ .classObject k aliased :=
    fun _ _ => nofun
  have hvalue (hs : s.holdsValue = true) (names : List String) (b : Option Denotation) {u : Walk}
      (hn : n ∈ names) : ∀ scope,
        (names.foldl (fun w name => w.bind name (b.map Denotation.asValue)) u).scopes[0]? =
          some scope →
        scope.bindings.find? n = some (.classObject k aliased) → BindsClass c m n k s aliased := by
    intro scope hscope hfind
    have hclass := ownClass?_of_map_asValue b
    rw [Option.some.inj ((find?_of_foldl_bind names hn hscope).symm.trans hfind)] at hclass
    rw [aliased_of_ownClass? hclass]
    exact .value hs
  cases s with
  | name line id use =>
    cases use with
    | load => cases hn
    | store => exact yields_pure (hother [id] hnone hn)
    | delete => exact yields_pure (hother [id] hnone hn)
  | assign names value => exact yields_bind fun b => yields_pure (hvalue rfl names b hn)
  | hinted name hint value =>
    exact yields_bind fun b => yields_pure (hvalue rfl [name] b hn)
  | bindOther name => exact yields_pure (hother [name] hnone hn)
  | moduleImport name target =>
    exact yields_pure (hother [name] (fun _ _ => nofun) hn)
  | nameImport name level source target => cases hs
  | caught name type =>
    have hcalled (b : Option Denotation) (k : ClassId) (aliased : Bool) :
        (b.bind Denotation.called).getD .other ≠ .classObject k aliased := by
      cases b with
      | none => exact nofun
      | some b => cases b <;> exact nofun
    cases type with
    | none => exact yields_bind fun b => yields_pure (hother [name] (hcalled b) hn)
    | some d => exact yields_bind fun b => yields_pure (hother [name] (hcalled b) hn)
  | openClass name position =>
    refine yields_pure fun scope hscope hfind => ?_
    have hbound := find?_of_foldl_bind [name] hn hscope
    obtain rfl := List.mem_singleton.mp hn
    rw [hfind] at hbound
    cases hk : declaredAt? c m position with
    | none =>
      rw [hk] at hbound
      cases hbound
    | some k' =>
      rw [hk] at hbound
      cases hbound
      exact .classStatement hk
  | openFunction name f =>
    exact yields_bind fun t => yields_pure (hother [name] hnone hn)
  | _ => cases hn

/-- **What a step can bind a class by**, if it is no import. -/
theorem bindsClass_of_perform (w : Walk) {s : Step} (hs : s.by = .value) {within : Bool}
    (hn : n ∈ s.names within) :
    Yields (perform c q m w s) fun v => ∀ scope, v.scopes[s.scopeIndex within]? = some scope →
      scope.bindings.find? n = some (.classObject k aliased) → BindsClass c m n k s aliased := by
  cases within with
  | false => exact bindsClass_of_bound w hs hn
  | true =>
    have hindex : s.scopeIndex true = 0 := if_neg fun h => Bool.noConfusion h.2
    rw [hindex]
    exact bindsClass_of_opened w hn

/-- An import binds a class only if the module that it names does. -/
theorem exists_exported_of_perform {w v : Walk} {s s' : Cache} {name target : String} {level : Nat}
    {source : Option String} {within : Bool}
    (hrun : (perform c q m w (.nameImport name level source target)).run s = (.ok v, s'))
    (hn : n ∈ (Step.nameImport name level source target).names within)
    (hscope : v.scopes[0]? = some scope)
    (hfind : scope.bindings.find? n = some (.classObject k aliased)) :
    ∃ d t i u, c.modules[m]? = some d ∧ Outline.importTarget? d.source level source = some t ∧
      c.findModule? t (some d.source.project) = some i ∧
      (q.exported i target).run s = (.ok (some (.classObject k aliased)), u) := by
  cases within with
  | true => cases hn
  | false =>
    rw [perform] at hrun
    split at hrun
    · rename_i hempty
      obtain rfl := Except.ok.inj (Prod.mk.inj hrun).1
      rw [List.isEmpty_iff.mp hempty] at hscope
      cases hscope
    · rw [run_bind] at hrun
      rcases himport : (importedName c q m level source target).run s with ⟨e | b, u⟩
      · rw [himport] at hrun
        cases hrun
      rw [himport] at hrun
      obtain rfl := Except.ok.inj (Prod.mk.inj hrun).1
      obtain rfl : b = .classObject k aliased := Option.some.inj
        ((find?_of_foldl_bind [name] hn hscope).symm.trans hfind)
      rw [importedName] at himport
      split at himport
      · cases Except.ok.inj (Prod.mk.inj himport).1
      · rename_i d hd
        split at himport
        · rename_i t ht
          obtain ⟨i, hi, u', hexported⟩ := exists_of_importFrom himport
          exact ⟨d, t, i, u', hd, ht, hi, hexported⟩
        · cases Except.ok.inj (Prod.mk.inj himport).1

end

/-! ### Ways to what a walk finds -/

/-- The ways to what a step binds a name to. An import leads on into another module. -/
inductive StepReaches (vs : List Codebase) (c : Codebase) (m : Nat) (b : Denotation) :
    Step → List Hop → Prop
  | classStatement {name : String} {position : Position} :
      StepReaches vs c m b (.openClass name position) [.classStatement]
  | nameImport {d : ModuleDecls} {name target t : String} {level i : Nat} {source : Option String}
      {way : List Hop} (hd : c.modules[m]? = some d)
      (ht : Outline.importTarget? d.source level source = some t)
      (hi : c.findModule? t (some d.source.project) = some i) (hway : Reaches vs i target b way) :
      StepReaches vs c m b (.nameImport name level source target) (.nameImport :: way)
  | value {s : Step} (hs : s.holdsValue = true) : StepReaches vs c m b s [.variable]

/-- The ways to what a name is bound to where it is seen after some steps: by the step that bound
it, or else as a name of the module. -/
inductive SeenBy (vs : List Codebase) (c : Codebase) (m : Nat) (σ₀ : Cache) (steps : List Step)
    (name : String) (b : Denotation) : List Hop → Prop
  | inside {o : Origin} {s : Step} {way : List Hop} (horigin : originOf name steps = some o)
      (hmade : Made c c.ask m σ₀ name steps o b) (hs : steps[o.before]? = some s)
      (hway : StepReaches vs c m b s way) : SeenBy vs c m σ₀ steps name b way
  | outside {way : List Hop} (horigin : originOf name steps = none)
      (hway : Reaches vs m name b way) : SeenBy vs c m σ₀ steps name b way

section

variable {vs : List Codebase} {c : Codebase} {m : Nat} {σ₀ s s' : Cache} {steps : List Step}
  {name : String} {k : ClassId} {aliased : Bool} {w : Walk}

/-- A walk comes to an import, by some steps, and the module that it names binds the name to a
class. -/
inductive ImportsClass (c : Codebase) (q : Questions) (m : Nat) (σ₀ : Cache) (k : ClassId)
    (aliased : Bool) : Step → Prop
  | intro {front : List Step} {u : Walk} {σ σ' : Cache} {d : ModuleDecls} {n target t : String}
      {level i : Nat} {source : Option String}
      (hfront : (front.foldlM (perform c q m) {}).run σ₀ = (.ok u, σ))
      (hd : c.modules[m]? = some d) (ht : Outline.importTarget? d.source level source = some t)
      (hi : c.findModule? t (some d.source.project) = some i)
      (hexported : (q.exported i target).run σ = (.ok (some (.classObject k aliased)), σ')) :
      ImportsClass c q m σ₀ k aliased (.nameImport n level source target)

/-- What made a class: a class statement, a value, or an import of it. -/
theorem exists_step_of_made {q : Questions} {o : Origin}
    (h : Made c q m σ₀ name steps o (.classObject k aliased)) :
    ∃ step, steps[o.before]? = some step ∧
      (BindsClass c m name k step aliased ∨ ImportsClass c q m σ₀ k aliased step) := by
  obtain ⟨rfl, hbefore, hfront, hstep, hn, hscope, hfind⟩ := h
  rename_i front rest step u v σ σ' scope
  refine ⟨step, by simp [← hbefore], ?_⟩
  by_cases hby : step.by = .value
  · exact .inl (bindsClass_of_perform u hby hn σ v σ' hstep scope hscope hfind)
  · cases step with
    | nameImport n level source target =>
      obtain ⟨d, t, i, τ, hd, ht, hi, hexported⟩ :=
        exists_exported_of_perform hstep hn hscope hfind
      exact .inr (.intro hfront hd ht hi hexported)
    | _ => exact absurd rfl hby

/-- Whatever class a walk finds under a name, there is a way to it. -/
theorem exists_way_of_found (hcomes : Comes vs c c.depth {} σ₀)
    (hwalk : (steps.foldlM (perform c c.ask m) {}).run σ₀ = (.ok w, s))
    (hfound : (lookupIn c.ask m w name).run s = (.ok (some (.classObject k aliased)), s')) :
    ∃ way, SeenBy vs c m σ₀ steps name (.classObject k aliased) way := by
  have hcomes' {front : List Step} {u : Walk} {σ : Cache}
      (hfront : (front.foldlM (perform c c.ask m) {}).run σ₀ = (.ok u, σ)) :
      Comes vs c c.depth {} σ := by
    have hσ := keeps_walk keeps_comes m front {} σ₀ hcomes
    rwa [hfront] at hσ
  have hat := findInScopes_of_originOf (n := name) hwalk
  rw [lookupIn] at hfound
  cases horigin : originOf name steps with
  | none =>
    rw [horigin] at hat
    rw [hat] at hfound
    obtain ⟨way, hway⟩ := exists_reaches_of_exported (hcomes' hwalk) hfound
    exact ⟨way, .outside horigin hway⟩
  | some o =>
    rw [horigin] at hat
    obtain ⟨b, hb, hmade⟩ := hat
    rw [hb] at hfound
    obtain rfl := Option.some.inj (Except.ok.inj (Prod.mk.inj hfound).1)
    obtain ⟨step, hstep, hbinds | himport⟩ := exists_step_of_made hmade
    · cases hbinds with
      | classStatement => exact ⟨_, .inside horigin hmade hstep .classStatement⟩
      | value hvalue => exact ⟨_, .inside horigin hmade hstep (.value hvalue)⟩
    · obtain ⟨hfront, hd, ht, hi, hexported⟩ := himport
      obtain ⟨way, hway⟩ := exists_reaches_of_exported (hcomes' hfront) hexported
      exact ⟨_, .inside horigin hmade hstep (.nameImport hd ht hi hway)⟩

/-- A class is held by a variable if and only if one is on the way that a step leads. -/
theorem aliased_iff_of_stepReaches {o : Origin} {step : Step} {way : List Hop}
    (hmade : Made c c.ask m σ₀ name steps o (.classObject k aliased))
    (hstep : steps[o.before]? = some step)
    (h : StepReaches vs c m (.classObject k aliased) step way) :
    aliased = true ↔ .variable ∈ way := by
  obtain ⟨step', hstep', hbinds⟩ := exists_step_of_made hmade
  obtain rfl := Option.some.inj (hstep'.symm.trans hstep)
  cases h with
  | nameImport _ _ _ hway => simp [aliased_iff_of_reaches hway]
  | classStatement =>
    obtain hbinds | himport := hbinds
    · cases hbinds with
      | classStatement => simp
      | value hvalue => cases hvalue
    · cases himport
  | value hvalue =>
    obtain hbinds | himport := hbinds
    · cases hbinds with
      | classStatement => cases hvalue
      | value => simp
    · cases himport
      cases hvalue

/-- A class is held by a variable if and only if the way to it leads through one. -/
theorem aliased_iff_of_seenBy {way : List Hop}
    (h : SeenBy vs c m σ₀ steps name (.classObject k aliased) way) :
    aliased = true ↔ .variable ∈ way := by
  cases h with
  | inside _ hmade hs hway => exact aliased_iff_of_stepReaches hmade hs hway
  | outside _ hway => exact aliased_iff_of_reaches hway

end

/-! ### Declared classes -/

section

variable {modules : List SourceModule}

/-- The class of a class statement at the level of a module is declared. -/
theorem isSome_classDecl?_of_classStatement {bases : Table ClassId (List ClassId)} {m : Nat}
    {name : String} {sources : List Source} {k : ClassId}
    (h : (Codebase.outline { ofModules (modules.map extractModule) with bases } m).names.find?
      name = some sources) (hk : .classStatement k ∈ sources) :
    ((ofModules (modules.map extractModule)).classDecl? k).isSome := by
  rw [outline, ofModules] at h
  dsimp only at h
  rw [List.getElem?_mapIdx, List.getElem?_map] at h
  cases hd : modules[m]? with
  | none =>
    rw [hd] at h
    cases h
  | some d =>
    rw [hd] at h
    have hm : (ofModules (modules.map extractModule)).modules[m]? = some (extractModule d) := by
      rw [ofModules, List.getElem?_map, hd]
      rfl
    refine Outline.every_ofModule (P := fun s => ∀ k, s = .classStatement k →
      ((ofModules (modules.map extractModule)).classDecl? k).isSome) ?_ name sources h _ hk k rfl
    rintro stmt hstmt s hs k rfl
    obtain ⟨rfl, p, cls, bases, keywords, body, decorators, rfl⟩ := hs
    have hdeclared := SourceModule.declaredAt?_of_declares hm (.level hstmt)
    rw [declaredAt?] at hdeclared
    exact Option.isSome_iff_exists.mpr ((Option.map_eq_some_iff.mp hdeclared).imp fun _ h => h.1)

/-- A class that no variable holds is declared. -/
theorem isSome_classSymbol?_of_seenBy {vs : List Codebase} {c : Codebase}
    (hvs : ∀ c ∈ vs, ∃ bases, c = { ofModules (modules.map extractModule) with bases })
    (hc : c ∈ vs) {m : Nat} {σ₀ : Cache} {steps : List Step} {name : String} {k : ClassId}
    {way : List Hop} (h : SeenBy vs c m σ₀ steps name (.classObject k false) way) :
    (c.classSymbol? k).isSome := by
  have hreached {i : Nat} {n : String} {way : List Hop}
      (hway : Reaches vs i n (.classObject k false) way) : (c.classSymbol? k).isSome := by
    obtain ⟨c', hc', i', n', sources, hsources, hmem⟩ := exists_classStatement_of_reaches hway
    obtain ⟨bases, rfl⟩ := hvs c' hc'
    obtain ⟨bases', rfl⟩ := hvs c hc
    rw [classSymbol?, Option.isSome_map]
    exact isSome_classDecl?_of_classStatement hsources hmem
  cases h with
  | outside _ hway => exact hreached hway
  | inside _ hmade hstep hway =>
    obtain ⟨step', hstep', hbinds⟩ := exists_step_of_made hmade
    obtain rfl := Option.some.inj (hstep'.symm.trans hstep)
    obtain hbinds | himport := hbinds
    · cases hbinds with
      | classStatement hk =>
        rw [declaredAt?, Option.map_eq_some_iff] at hk
        obtain ⟨d, hd, rfl⟩ := hk
        rw [classSymbol?, hd]
        rfl
    · cases himport
      cases hway with
      | nameImport _ _ _ hway => exact hreached hway
      | value hvalue => cases hvalue

end

/-! ### References -/

/-- **A class is recorded under its own names.** Something has been asked about the modules, base
classes have been found, and the references of some modules have been collected. A walk through a
module then meets a name that denotes a class. There is a way to the class: by what bound the name
in a scope, or from the module, and by imports from name to name. Whichever way that is, a reference
to the class is recorded if and only if the way leads through no variable. -/
theorem recorded_iff_variable_notMem {modules : List SourceModule} {events : List Event}
    {c : Codebase} {kept s s' : Cache} {earlier : List Nat} {m : Nat} {before : List Step}
    {w : Walk} {name : String} {k : ClassId} {aliased : Bool}
    (hc : Environment.run ⟨ofModules (modules.map extractModule), []⟩ events = ⟨c, kept⟩)
    (hwalk : (before.foldlM (perform c c.ask m) {}).run
      ((earlier.mapM (references c)).run kept).2 = (.ok w, s))
    (hfound : (lookupIn c.ask m w name).run s = (.ok (some (.classObject k aliased)), s')) :
    let vs := Environment.versions ⟨ofModules (modules.map extractModule), []⟩ events
    let start := ((earlier.mapM (references c)).run kept).2
    (∃ way, SeenBy vs c m start before name (.classObject k aliased) way) ∧
      ∀ way, SeenBy vs c m start before name (.classObject k aliased) way → ∀ line,
        ∃ v, (perform c c.ask m w (.name line name .load)).run s = (.ok v, s') ∧
          (.variable ∈ way → v = w) ∧
          (.variable ∉ way → ∃ sym, c.classSymbol? k = some sym ∧ v = w.record sym line) := by
  intro vs start
  let e : Environment := ⟨ofModules (modules.map extractModule), []⟩
  have hcomes : Comes vs (e.run events).codebase (e.run events).codebase.depth {}
      (e.run events).kept :=
    comes_run (fun _ h => h) (.start (e.codebase_mem_versions events))
  rw [show e.run events = ⟨c, kept⟩ from hc] at hcomes
  have hstart : Comes vs c c.depth {} start := keeps_mapM_references keeps_comes earlier _ hcomes
  refine ⟨exists_way_of_found hstart hwalk hfound, fun way hway line => ?_⟩
  have hperform : (perform c c.ask m w (.name line name .load)).run s =
      (.ok (recordClass c (if aliased then none else some k) line w), s') := by
    rw [perform, run_bind, hfound]
    cases aliased <;> rfl
  refine ⟨_, hperform, fun hmem => ?_, fun hmem => ?_⟩
  · rw [(aliased_iff_of_seenBy hway).mpr hmem]
    rfl
  · obtain rfl : aliased = false :=
      Bool.eq_false_of_not_eq_true ((aliased_iff_of_seenBy hway).not.mpr hmem)
    have hdeclared := isSome_classSymbol?_of_seenBy
      (fun _ h => Environment.exists_bases_of_mem_versions h) hstart.mem hway
    obtain ⟨sym, hsym⟩ := Option.isSome_iff_exists.mp hdeclared
    refine ⟨sym, hsym, ?_⟩
    rw [if_neg Bool.false_ne_true, recordClass, Option.bind_some, hsym]

/-- A class and a variable that holds it, both taken over by another module. -/
theorem recorded_iff_variable_notMem_wildcard :
    let modules := [readModule "a" "class A:\n    pass\nC = A\n",
      readModule "b" "from a import *\nA\nC\n"]
    let c := ofModules (modules.map extractModule)
    let k : ClassId := ⟨0, ⟨0, 0⟩⟩
    ∃ sym s s', c.classSymbol? k = some sym ∧
      (lookupIn c.ask 1 {} "A").run [] = (.ok (some (.classObject k false)), s) ∧
      (perform c c.ask 1 {} (.name 1 "A" .load)).run [] = (.ok (Walk.record sym 1 {}), s) ∧
      (lookupIn c.ask 1 (Walk.record sym 1 {}) "C").run s =
        (.ok (some (.classObject k true)), s') ∧
      (perform c c.ask 1 (Walk.record sym 1 {}) (.name 2 "C" .load)).run s =
        (.ok (Walk.record sym 1 {}), s') := by
  intro modules c k
  obtain ⟨s, hA⟩ : ∃ s, (lookupIn c.ask 1 {} "A").run [] =
      (.ok (some (.classObject k false)), s) := ⟨_, run_eq_of_fst (by decide +kernel)⟩
  have hC : ((perform c c.ask 1 {} (.name 1 "A" .load) >>= fun w => lookupIn c.ask 1 w "C").run
      []).1 = .ok (some (.classObject k true)) := by
    decide +kernel
  have hc : Environment.run ⟨ofModules (modules.map extractModule), []⟩ [] = ⟨c, []⟩ := rfl
  have hstart : ([].foldlM (perform c c.ask 1) {}).run (([].mapM (references c)).run []).2 =
      (.ok {}, []) := rfl
  obtain ⟨⟨way, hway⟩, hrecorded⟩ := recorded_iff_variable_notMem hc hstart hA
  obtain ⟨v, hrun, -, hown⟩ := hrecorded way hway 1
  obtain ⟨sym, hsym, rfl⟩ :=
    hown fun hmem => Bool.false_ne_true ((aliased_iff_of_seenBy hway).mpr hmem)
  have hmetA : (perform c c.ask 1 {} (.name 1 "A" .load)).run [] =
    (.ok (Walk.record sym 1 {}), s) := hrun
  have hsteps : ([.name 1 "A" .load].foldlM (perform c c.ask 1) {}).run [] =
      (.ok (Walk.record sym 1 {}), s) := by
    simpa using hmetA
  have hnone : (([].mapM (references c)).run []).2 = [] := rfl
  have hwalk : ([.name 1 "A" .load].foldlM (perform c c.ask 1) {}).run
      (([].mapM (references c)).run []).2 = (.ok (Walk.record sym 1 {}), s) := by
    rw [hnone, hsteps]
  rw [run_bind, hmetA] at hC
  obtain ⟨⟨way', hway'⟩, hrecorded'⟩ :=
    recorded_iff_variable_notMem hc hwalk (run_eq_of_fst hC)
  obtain ⟨v', hmetC, hvariable, -⟩ := hrecorded' way' hway' 2
  obtain rfl := hvariable ((aliased_iff_of_seenBy hway').mp rfl)
  exact ⟨sym, s, _, hsym, hA, hmetA, run_eq_of_fst hC, hmetC⟩

end Concordance.Binding
