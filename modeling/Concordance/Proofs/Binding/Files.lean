import Concordance.Binding.References

/-!
# The files of modules

Each module knows the file that it was read from, but nothing that is asked about names looks at it.
So modules can be moved: the same is declared, the same questions have the same answers, the same
base classes are found, and the same references are recorded, wherever the files lie.

## Main definitions

* `ModuleDecls.moved`, `Codebase.moved`: modules with their files elsewhere

## Main results

* `extractModule_moved`: what a module declares
* `Codebase.ask_moved`: answers to questions
* `Codebase.resolveBases_moved`: base classes
* `references_moved`: references
-/

namespace Concordance

/-- A source with its file elsewhere. -/
def SourceModule.moved (g : String → String) (m : SourceModule) : SourceModule :=
  { m with file := g m.file }

/-- A module with its file elsewhere. -/
def ModuleDecls.moved (g : String → String) (d : ModuleDecls) : ModuleDecls :=
  { d with source := d.source.moved g }

/-! ### Declarations -/

section

variable (g : String → String)

theorem extractClasses_moved (m : SourceModule) (container : Option String) :
    ∀ body : List Syntax.Node,
      extractClasses (m.moved g) container body = extractClasses m container body
  | [] => by rw [extractClasses, extractClasses]
  | n :: rest => by
    rw [extractClasses, extractClasses, extractClasses_moved m container rest]
    congr 2
    cases n with
    | classDef p name bases keywords body decorators =>
      rw [extractClass, extractClass, extractClasses_moved m _ body]
      rfl
    | _ => simp only [extractClass]
  termination_by body => sizeOf body

/-- What a module declares does not depend on its file. -/
theorem extractModule_moved (m : SourceModule) :
    extractModule (m.moved g) = (extractModule m).moved g := by
  have hclass : extractClass (m.moved g) none = extractClass m none := by
    funext n
    have hone := extractClasses_moved g m none [n]
    simp only [extractClasses, List.append_nil] at hone
    simpa using congrArg List.head? hone
  rw [extractModule, extractModule, hclass]
  rfl

end

namespace Binding

/-- A codebase with the files of its modules elsewhere. -/
def Codebase.moved (g : String → String) (c : Codebase) : Codebase :=
  { c with modules := c.modules.map (ModuleDecls.moved g) }

variable (g : String → String) (c : Codebase) (q : Questions)

/-! ### Modules and classes -/

namespace Codebase

omit c q in
theorem mapIdx_moved {α : Type} (f : Nat → ModuleDecls → α) (modules : List ModuleDecls)
    (hf : ∀ i d, f i (d.moved g) = f i d) :
    (modules.map (ModuleDecls.moved g)).mapIdx f = modules.mapIdx f := by
  refine List.ext_getElem? fun i => ?_
  rw [List.getElem?_mapIdx, List.getElem?_mapIdx, List.getElem?_map, Option.map_map]
  exact Option.map_congr fun d _ => hf i d

theorem ofModules_moved (modules : List ModuleDecls) :
    ofModules (modules.map (ModuleDecls.moved g)) = (ofModules modules).moved g := by
  have houtlines : (modules.map (ModuleDecls.moved g)).mapIdx (fun i d => .ofModule d.source i) =
      modules.mapIdx fun i d => Outline.ofModule d.source i :=
    mapIdx_moved g _ modules fun _ _ => rfl
  rw [ofModules, houtlines]
  rfl

@[simp] theorem getElem?_moved (m : Nat) :
    (c.moved g).modules[m]? = (c.modules[m]?).map (ModuleDecls.moved g) :=
  List.getElem?_map

@[simp] theorem outline_moved (m : Nat) : (c.moved g).outline m = c.outline m := rfl

@[simp] theorem basesOf_moved (k : ClassId) : (c.moved g).basesOf k = c.basesOf k := rfl

@[simp] theorem project?_moved (m : Nat) : (c.moved g).project? m = c.project? m := by
  rw [project?, project?, getElem?_moved, Option.map_map]
  rfl

@[simp] theorem hasModule_moved (name : String) : (c.moved g).hasModule name = c.hasModule name :=
  List.any_map

@[simp] theorem findModule?_moved (name : String) (project : Option String) :
    (c.moved g).findModule? name project = c.findModule? name project := by
  rw [findModule?, findModule?, moved, List.findIdx?_map, List.findIdx?_map]
  rfl

@[simp] theorem classIds_moved : (c.moved g).classIds = c.classIds := by
  rw [classIds, classIds]
  exact congrArg List.flatten (mapIdx_moved g _ c.modules fun _ _ => rfl)

@[simp] theorem classDecl?_moved (k : ClassId) : (c.moved g).classDecl? k = c.classDecl? k := by
  rw [classDecl?, classDecl?, getElem?_moved, Option.bind_map]
  rfl

@[simp] theorem classSymbol?_moved (k : ClassId) :
    (c.moved g).classSymbol? k = c.classSymbol? k := by
  rw [classSymbol?, classSymbol?, classDecl?_moved]

@[simp] theorem ownMember?_moved (name : String) (k : ClassId) :
    (c.moved g).ownMember? name k = c.ownMember? name k := by
  rw [ownMember?, ownMember?, classDecl?_moved]

theorem searchMember_moved (name : String) (visited stack : List ClassId) :
    (c.moved g).searchMember name visited stack = c.searchMember name visited stack := by
  induction visited, stack using searchMember.induct c name with
  | case1 visited => rw [searchMember, searchMember]
  | case2 visited k stack hk ih => rw [searchMember, if_pos hk, ih, searchMember, if_pos hk]
  | case3 visited k stack hk s hs =>
    rw [searchMember, if_neg hk, ownMember?_moved, hs, searchMember, if_neg hk, hs]
  | case4 visited k stack hk hs ih =>
    rw [searchMember, if_neg hk, ownMember?_moved, hs, searchMember, if_neg hk, hs]
    exact ih

@[simp] theorem findMember?_moved (k : ClassId) (name : String) (skipSelf : Bool) :
    (c.moved g).findMember? k name skipSelf = c.findMember? k name skipSelf := by
  rw [findMember?, findMember?, searchMember_moved, basesOf_moved]

@[simp] theorem memberOn?_moved (b : Denotation) (attr : String) :
    (c.moved g).memberOn? b attr = c.memberOn? b attr := by
  cases b <;> simp only [memberOn?, findMember?_moved]

@[simp] theorem depth_moved : (c.moved g).depth = c.depth := by
  have hnames : (c.moved g).declaredNames = c.declaredNames := by
    rw [declaredNames, declaredNames, moved, List.zipIdx_map, List.flatMap_map]
    rfl
  rw [depth, depth, steps, steps, hnames, moved, List.length_map]
  rfl

end Codebase

/-! ### Answers -/

@[simp] theorem importFrom_moved : importFrom (c.moved g) q = importFrom c q := by
  funext project target name
  simp only [importFrom, Codebase.findModule?_moved, Codebase.hasModule_moved]

@[simp] theorem memberOf_moved : memberOf (c.moved g) q = memberOf c q := by
  funext b attr
  simp only [memberOf, Codebase.findModule?_moved, Codebase.hasModule_moved,
    Codebase.memberOn?_moved, Codebase.classDecl?_moved]

@[simp] theorem methodOwner?_moved : methodOwner? (c.moved g) = methodOwner? c := by
  funext b attr
  simp only [methodOwner?, Codebase.memberOn?_moved]

@[simp] theorem memberOfOption_moved : memberOfOption (c.moved g) q = memberOfOption c q := by
  funext b attr
  simp only [memberOfOption, memberOf_moved]

@[simp] theorem resolve_moved : resolve (c.moved g) q = resolve c q := by
  funext lookup enclosing d
  induction d using resolve.induct <;>
    simp only [resolve, memberOfOption_moved, methodOwner?_moved, *]

@[simp] theorem resolveHint_moved : resolveHint (c.moved g) q = resolveHint c q := by
  funext lookup h
  induction h <;> simp only [resolveHint, resolve_moved, *]

@[simp] theorem resolveTyped_moved : resolveTyped (c.moved g) q = resolveTyped c q := by
  funext lookup enclosing hint value
  simp only [resolveTyped, resolveHint_moved, resolve_moved]

@[simp] theorem resolveSource_moved : resolveSource (c.moved g) q = resolveSource c q := by
  funext m s
  cases s <;> simp only [resolveSource, importFrom_moved, Codebase.project?_moved, resolve_moved,
    resolveTyped_moved]

@[simp] theorem firstInformative_moved :
    firstInformative (c.moved g) q = firstInformative c q := by
  funext m sources
  induction sources with
  | nil => rfl
  | cons s rest ih => simp only [firstInformative, resolveSource_moved, ih]

@[simp] theorem firstExport_moved : firstExport (c.moved g) q = firstExport c q := by
  funext m name targets
  induction targets with
  | nil => rfl
  | cons target rest ih =>
    simp only [firstExport, Codebase.findModule?_moved, Codebase.project?_moved, ih]

@[simp] theorem resolveExport_moved : resolveExport (c.moved g) q = resolveExport c q := by
  funext m name
  simp only [resolveExport, Codebase.outline_moved, firstInformative_moved, firstExport_moved]

@[simp] theorem resolveMemberType_moved :
    resolveMemberType (c.moved g) q = resolveMemberType c q := by
  funext owner attr aspect
  simp only [resolveMemberType, Codebase.classDecl?_moved, resolveHint_moved, resolve_moved]

namespace Codebase

theorem questions_moved (depth : Nat) (asked : Open) :
    (c.moved g).questions depth asked = c.questions depth asked := by
  induction depth generalizing asked with
  | zero => rfl
  | succ depth ih => simp only [questions, ih, resolveExport_moved, resolveMemberType_moved]

/-- Answers do not depend on files. -/
@[simp] theorem ask_moved : (c.moved g).ask = c.ask := by
  rw [ask, ask, depth_moved, questions_moved]

/-! ### Base classes -/

theorem resolveBase_moved (k : ClassId) (base : Syntax.Node) :
    (c.moved g).resolveBase k base = moved g <$> c.resolveBase k base := by
  simp only [resolveBase, ask_moved, resolve_moved, map_bind]
  refine bind_congr fun found => ?_
  split
  · rw [map_pure]
    split <;> rfl
  · rw [map_pure]

/-- Work on a codebase step by step, each step of which does not depend on files. -/
theorem foldlM_moved {α : Type} {f : Codebase → α → Resolve Codebase}
    (hf : ∀ c a, f (c.moved g) a = moved g <$> f c a) (l : List α) (c : Codebase) :
    l.foldlM f (c.moved g) = moved g <$> l.foldlM f c := by
  induction l generalizing c with
  | nil => exact (map_pure _ _).symm
  | cons a rest ih =>
    rw [List.foldlM_cons, List.foldlM_cons, hf, bind_map_left, map_bind]
    exact bind_congr fun c => ih c

/-- Base classes do not depend on files. -/
theorem resolveBases_moved : (c.moved g).resolveBases = moved g <$> c.resolveBases := by
  rw [resolveBases, resolveBases, classIds_moved]
  refine foldlM_moved g (fun c k => ?_) _ c
  rw [classDecl?_moved]
  cases c.classDecl? k with
  | none => exact (map_pure _ _).symm
  | some d => exact foldlM_moved g (fun c base => resolveBase_moved g c k base) _ c

end Codebase

/-! ### References -/

@[simp] theorem resolveIn_moved : resolveIn (c.moved g) q = resolveIn c q := by
  funext m w d
  simp only [resolveIn, resolve_moved]

@[simp] theorem recordClass_moved : recordClass (c.moved g) = recordClass c := by
  funext k line w
  have hsymbol : (c.moved g).classSymbol? = c.classSymbol? :=
    funext fun k => c.classSymbol?_moved g k
  simp only [recordClass, hsymbol]

@[simp] theorem recordMember_moved : recordMember (c.moved g) = recordMember c := by
  funext m s position line attr use updates w
  have hsite : isFieldSite (c.moved g) m position attr = isFieldSite c m position attr := by
    rw [isFieldSite, isFieldSite, Codebase.getElem?_moved]
    cases c.modules[m]? <;> rfl
  simp only [recordMember, hsite]

@[simp] theorem importedName_moved : importedName (c.moved g) q = importedName c q := by
  funext m level source target
  rw [importedName, importedName, Codebase.getElem?_moved, importFrom_moved]
  cases c.modules[m]? <;> rfl

/-- Each step of a walk does the same. -/
theorem perform_moved : perform (c.moved g) q = perform c q := by
  funext m w step
  cases step with
  | member position line value attr use updates =>
    simp only [perform, meetMember, resolveIn_moved, Codebase.memberOn?_moved, recordMember_moved,
      recordClass_moved, memberOf_moved]
  | call line callee =>
    simp only [perform, meetCall, resolveIn_moved, Codebase.findMember?_moved]
  | openClass name position => simp only [perform, declaredAt?, Codebase.classDecl?_moved]
  | openFunction name signature => simp only [perform, bindParameters, resolveHint_moved]
  | name line id use => cases use <;> simp only [perform, recordClass_moved]
  | _ => simp only [perform, resolveIn_moved, resolveTyped_moved, importedName_moved]

/-- The references in a module do not depend on files. -/
theorem references_moved (m : Nat) : references (c.moved g) m = references c m := by
  have hbody : (((c.moved g).modules[m]?).map fun d => d.source.body).getD [] =
      ((c.modules[m]?).map fun d => d.source.body).getD [] := by
    rw [Codebase.getElem?_moved, Option.map_map]
    rfl
  rw [references, references, hbody, Codebase.ask_moved, perform_moved]

end Binding

end Concordance
