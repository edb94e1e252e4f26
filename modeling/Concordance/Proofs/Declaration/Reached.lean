import Concordance.Proofs.Declaration.Tables
import Concordance.Proofs.Declaration.TextOrder

/-!
# Which classes are declared

A class is declared unless it is local. One that is not local stands at the level of the module,
within any nesting of branches, guards and contexts, or directly in the body of another one. What
stands in a function, a loop or a case is local, and so is what stands in a branch within the body
of a class, however much this looks like a branch of the module.

`Reached` says of each statement whether it is reached in this way, and by which classes. It speaks
of the tree only, while a module is extracted by two recursions, one through blocks and one through
class bodies, which fill one table. Between the two stands `completedAll`, the class statements in
the order in which they are complete: the declared classes are made from them one by one, they are
those that are reached, and none of them is listed twice.

## Main definitions

* `Reached`: a statement that is not local, with the names of the classes around it
* `completedAll`: class statements, each one behind those in its body
* `ClassDecl.IsOf`: a declared class is that of a statement
* `SourceModule.DeclaresReached`: what a module declares is what is reached in it

## Main results

* `mem_moduleStatements_iff`: the module level by its blocks
* `mem_completedAll_iff`: the class statements that are reached
* `forall₂_isOf_completedAll`: they are declared in the order in which they are complete
* `SourceModule.declaresReached`: every module that is read
-/

namespace Concordance

open Syntax Binding

/-! ### The way to a statement -/

namespace Syntax.Node

/-- What stands directly in a block of a branch, guard or context. A guard has handlers beside its
blocks, and these have blocks of their own. -/
def inBlocks : Node → List Node
  | .branch _ _ body orElse => body ++ orElse
  | .guarded _ _ body handlers orElse final => body ++ handlers ++ orElse ++ final
  | .within _ _ _ body => body
  | .handler _ _ _ body => body
  | _ => []

/-- What stands directly in the body of a class. -/
def classBody : Node → List Node
  | .classDef _ _ _ _ body _ => body
  | _ => []

/-- A node stands within another one, in blocks of blocks. -/
def Blocks : Node → Node → Prop := Relation.ReflTransGen fun b n => n ∈ b.inBlocks

/-- A node stands within a class, in bodies of the classes in its body. -/
def Nests : Node → Node → Prop := Relation.TransGen fun c n => n ∈ c.classBody

end Syntax.Node

/-- What is reached from the statements of a module through blocks, and then through the bodies of
classes, whose names are given from the outermost one on. -/
inductive Reached (body : List Node) : List String → Node → Prop
  | level {b n : Node} (hb : b ∈ body) (hn : b.Blocks n) : Reached body [] n
  | nested {path : List String} {c n : Node} {name : String} (hc : Reached body path c)
      (hname : c.className? = some name) (hn : n ∈ c.classBody) : Reached body (path ++ [name]) n

/-! ### The level of the module -/

/-- The statements of the module level stand in its blocks. -/
theorem blocks_of_mem_statements :
    (∀ n, ∀ s ∈ innerStatements n, n.Blocks s) ∧
    (∀ hs, ∀ s ∈ handlerStatements hs, ∃ h ∈ hs, h.Blocks s) ∧
    ∀ ns, ∀ s ∈ moduleStatements ns, ∃ n ∈ ns, n.Blocks s := by
  have hinto {b : Node} {ns : List Node} (hns : ns ⊆ b.inBlocks) {s : Node}
      (h : ∃ n ∈ ns, n.Blocks s) : b.Blocks s := by
    obtain ⟨n, hn, hs⟩ := h
    exact .head (hns hn) hs
  refine level_induction ?flat ?branch ?guarded ?within ?handler ?noHandler ?handlers ?nothing
    ?statements
  case flat =>
    intro n hflat s hs
    rw [innerStatements_of_not_opensBlock hflat] at hs
    cases hs
  case branch =>
    intro p test body orElse hbody horElse s hs
    rcases List.mem_append.mp hs with hs | hs
    · exact hinto (by simp [Node.inBlocks]) (hbody s hs)
    · exact hinto (by simp [Node.inBlocks]) (horElse s hs)
  case guarded =>
    intro p group body handlers orElse final hbody horElse hfinal hhandlers s hs
    simp only [innerStatements, List.mem_append] at hs
    rcases hs with ((hs | hs) | hs) | hs
    · exact hinto (fun n hn => by simp [Node.inBlocks, hn]) (hbody s hs)
    · exact hinto (fun n hn => by simp [Node.inBlocks, hn]) (horElse s hs)
    · exact hinto (fun n hn => by simp [Node.inBlocks, hn]) (hfinal s hs)
    · exact hinto (fun n hn => by simp [Node.inBlocks, hn]) (hhandlers s hs)
  case within => exact fun _ _ _ _ hbody s hs => hinto (List.Subset.refl _) (hbody s hs)
  case handler => exact fun _ _ _ _ hbody s hs => hinto (List.Subset.refl _) (hbody s hs)
  case noHandler => exact List.forall_mem_nil _
  case handlers =>
    intro h rest hh hrest s hs
    rcases List.mem_append.mp hs with hs | hs
    · exact ⟨h, List.mem_cons_self, hh s hs⟩
    · obtain ⟨h', hh', hs⟩ := hrest s hs
      exact ⟨h', List.mem_cons_of_mem _ hh', hs⟩
  case nothing => exact List.forall_mem_nil _
  case statements =>
    intro n rest hn hrest s hs
    rcases List.mem_cons.mp hs with rfl | hs
    · exact ⟨s, List.mem_cons_self, .refl⟩
    · rcases List.mem_append.mp hs with hs | hs
      · exact ⟨n, List.mem_cons_self, hn s hs⟩
      · obtain ⟨n', hn', hs⟩ := hrest s hs
        exact ⟨n', List.mem_cons_of_mem _ hn', hs⟩

theorem subset_moduleStatements (ns : List Node) : ns ⊆ moduleStatements ns := by
  induction ns with
  | nil => exact List.nil_subset _
  | cons n rest ih =>
    rw [moduleStatements, List.cons_subset]
    refine ⟨List.mem_cons_self, fun s hs => List.mem_cons_of_mem _ ?_⟩
    exact List.mem_append_right _ (ih hs)

theorem innerStatements_subset_handlerStatements {hs : List Node} {h : Node} (hh : h ∈ hs) :
    innerStatements h ⊆ handlerStatements hs := by
  induction hs with
  | nil => cases hh
  | cons first rest ih =>
    rw [handlerStatements]
    rcases List.mem_cons.mp hh with rfl | hh
    · exact List.subset_append_left _ _
    · exact List.subset_append_of_subset_right _ (ih hh)

/-- What stands in a block is listed with the statements within it unless it is a handler, and the
statements within that are listed. -/
theorem listed_of_mem_inBlocks {b n : Node} (hb : b.Handled) (hn : n ∈ b.inBlocks) :
    (n ∈ innerStatements b ∨ n.IsHandler) ∧ innerStatements n ⊆ innerStatements b := by
  have hlisted {ns : List Node} (hns : moduleStatements ns ⊆ innerStatements b) (hn : n ∈ ns) :
      (n ∈ innerStatements b ∨ n.IsHandler) ∧ innerStatements n ⊆ innerStatements b := by
    have hmem := subset_moduleStatements ns hn
    exact ⟨.inl (hns hmem), List.Subset.trans (sublist_within.2.2 ns n hmem).1.subset hns⟩
  cases b with
  | branch p test body orElse =>
    rcases List.mem_append.mp hn with hn | hn
    · exact hlisted (List.subset_append_left _ _) hn
    · exact hlisted (List.subset_append_right _ _) hn
  | guarded p group body handlers orElse final =>
    simp only [Node.inBlocks, List.mem_append] at hn
    obtain ⟨hbody, horElse, hfinal, hhandlers⟩ := parts_sublist (moduleStatements body)
      (moduleStatements orElse) (moduleStatements final) (handlerStatements handlers)
    rcases hn with ((hn | hn) | hn) | hn
    · exact hlisted hbody.subset hn
    · refine ⟨.inr (hb n hn), List.Subset.trans ?_ hhandlers.subset⟩
      exact innerStatements_subset_handlerStatements hn
    · exact hlisted horElse.subset hn
    · exact hlisted hfinal.subset hn
  | within p async items body => exact hlisted (List.Subset.refl _) hn
  | handler p type name body => exact hlisted (List.Subset.refl _) hn
  | _ => cases hn

theorem listed_of_blocks {body : List Node} (hhandled : ∀ n ∈ moduleStatements body, n.Handled)
    {b n : Node} (hb : b ∈ body) (hn : b.Blocks n) :
    (n ∈ moduleStatements body ∨ n.IsHandler) ∧ innerStatements n ⊆ moduleStatements body := by
  induction hn with
  | refl =>
    have hmem := subset_moduleStatements body hb
    exact ⟨.inl hmem, (sublist_within.2.2 body b hmem).1.subset⟩
  | @tail c n _ hn ih =>
    obtain ⟨hc, hwithin⟩ := ih
    have hchandled : c.Handled := by
      rcases hc with hc | hc
      · exact hhandled c hc
      · cases c with
        | handler => trivial
        | _ => exact hc.elim
    obtain ⟨hn, hinner⟩ := listed_of_mem_inBlocks hchandled hn
    exact ⟨hn.imp_left (@hwithin n), List.Subset.trans hinner hwithin⟩

/-- The classes of the module level are those that are reached through blocks alone. -/
theorem mem_moduleStatements_iff {body : List Node}
    (hhandled : ∀ n ∈ moduleStatements body, n.Handled) {n : Node} (hn : n.className?.isSome) :
    n ∈ moduleStatements body ↔ Reached body [] n := by
  constructor
  · intro hmem
    obtain ⟨b, hb, hblocks⟩ := blocks_of_mem_statements.2.2 body n hmem
    exact .level hb hblocks
  · generalize hpath : ([] : List String) = path
    rintro (⟨hb, hblocks⟩ | _)
    · refine (listed_of_blocks hhandled hb hblocks).1.resolve_right fun hhandler => ?_
      cases n with
      | handler => cases hn
      | _ => exact hhandler.elim
    · simp at hpath

/-! ### The order in which classes are complete -/

namespace Syntax.Node

mutual

/-- A class statement behind those in its body, each one with the names of the classes around
it. -/
def completed (path : List String) : Node → List (List String × Node)
  | .classDef p id bases keywords body decorators =>
    completedAll (path ++ [id]) body ++ [(path, .classDef p id bases keywords body decorators)]
  | _ => []

/-- The class statements among some nodes, each one behind those in its body. -/
def completedAll (path : List String) : List Node → List (List String × Node)
  | [] => []
  | n :: rest => n.completed path ++ completedAll path rest

end

variable {path : List String} {n : Node}

theorem completedAll_eq_flatMap (path : List String) (ns : List Node) :
    completedAll path ns = ns.flatMap (completed path) := by
  induction ns with
  | nil => rfl
  | cons n rest ih => simp [completedAll, ih]

theorem completed_of_className? {id : String} (h : n.className? = some id) :
    n.completed path = completedAll (path ++ [id]) n.classBody ++ [(path, n)] := by
  cases n with
  | classDef =>
    cases h
    rw [completed, classBody]
  | _ => cases h

theorem completed_eq_nil (h : n.className? = none) : n.completed path = [] := by
  cases n with
  | classDef => cases h
  | _ => simp [completed]

/-- The classes within one of some nodes are listed in the same order among all of them. -/
theorem completed_sublist {ns : List Node} (h : n ∈ ns) :
    (n.completed path).Sublist (completedAll path ns) := by
  rw [completedAll_eq_flatMap, ← List.flatMap_singleton (completed path) n]
  exact (List.singleton_sublist.mpr h).flatMap _

end Syntax.Node

open Syntax.Node

section

variable {body : List Node}

/-- What is listed is reached. -/
theorem reached_of_mem_completedAll : ∀ (ns : List Node) (path : List String),
    (∀ n ∈ ns, Reached body path n) →
      ∀ e ∈ completedAll path ns, Reached body e.1 e.2 ∧ e.2.className?.isSome
  | [], _, _ => List.forall_mem_nil _
  | n :: rest, path, h => by
    obtain ⟨hn, hrest⟩ := List.forall_mem_cons.mp h
    rw [completedAll, List.forall_mem_append]
    refine ⟨?_, reached_of_mem_completedAll rest path hrest⟩
    cases n with
    | classDef p id bases keywords inner decorators =>
      rw [completed, List.forall_mem_append, List.forall_mem_singleton]
      refine ⟨reached_of_mem_completedAll inner (path ++ [id]) fun s hs => ?_, hn, rfl⟩
      exact hn.nested rfl hs
    | _ => rw [completed_eq_nil rfl]; exact List.forall_mem_nil _
  termination_by ns => sizeOf ns

/-- A class that is reached is listed behind those within it. -/
theorem completed_sublist_of_reached (hhandled : ∀ n ∈ moduleStatements body, n.Handled)
    {path : List String} {n : Node} (h : Reached body path n) (hn : n.className?.isSome) :
    (n.completed path).Sublist (completedAll [] (moduleStatements body)) := by
  induction h with
  | level hb hblocks =>
    exact completed_sublist ((mem_moduleStatements_iff hhandled hn).mpr (.level hb hblocks))
  | @nested path c n name hc hname hmem ih =>
    have hlisted := ih (by simp [hname])
    rw [completed_of_className? hname] at hlisted
    exact (completed_sublist hmem).trans ((List.sublist_append_left _ _).trans hlisted)

/-- The class statements that are listed are those that are reached. -/
theorem mem_completedAll_iff (hhandled : ∀ n ∈ moduleStatements body, n.Handled)
    {path : List String} {n : Node} :
    (path, n) ∈ completedAll [] (moduleStatements body) ↔
      Reached body path n ∧ n.className?.isSome := by
  constructor
  · refine reached_of_mem_completedAll _ [] (fun s hs => ?_) (path, n)
    obtain ⟨b, hb, hblocks⟩ := blocks_of_mem_statements.2.2 body s hs
    exact .level hb hblocks
  · rintro ⟨hreached, hn⟩
    obtain ⟨name, hname⟩ := Option.isSome_iff_exists.mp hn
    refine (completed_sublist_of_reached hhandled hreached hn).subset ?_
    rw [completed_of_className? hname]
    exact List.mem_append_right _ (List.mem_singleton_self _)

/-- The classes within a class are listed among those in its body. -/
theorem exists_mem_completedAll_of_nests {c n : Node} (h : c.Nests n) (hn : n.className?.isSome)
    (path : List String) {name : String} (hname : c.className? = some name) :
    ∃ path', (path', n) ∈ completedAll (path ++ [name]) c.classBody := by
  obtain ⟨name', hname'⟩ := Option.isSome_iff_exists.mp hn
  induction h using Relation.TransGen.head_induction_on generalizing path name with
  | @single c hmem =>
    refine ⟨path ++ [name], (completed_sublist hmem).subset ?_⟩
    rw [completed_of_className? hname']
    exact List.mem_append_right _ (List.mem_singleton_self _)
  | @head c inner hmem hrest ih =>
    -- only a class has something in its body
    obtain ⟨id, hid⟩ : ∃ id, inner.className? = some id := by
      obtain ⟨b, hb, -⟩ := Relation.TransGen.head'_iff.mp hrest
      cases inner with
      | classDef p id => exact ⟨id, rfl⟩
      | _ => cases hb
    obtain ⟨path', hlisted⟩ := ih (path ++ [name]) hid
    refine ⟨path', (completed_sublist hmem).subset ?_⟩
    rw [completed_of_className? hid]
    exact List.mem_append_left _ hlisted

end

/-! ### Listed once -/

/-- The class statements that are listed are statements of the text, none of them listed twice. -/
theorem completedAll_subperm : ∀ (ns : List Node) (path : List String),
    ((completedAll path ns).map Prod.snd).Subperm (allStatements ns)
  | [], _ => List.Subperm.refl _
  | n :: rest, path => by
    rw [completedAll, List.map_append, allStatements, ← List.cons_append]
    refine List.Subperm.append ?_ (completedAll_subperm rest path)
    cases n with
    | classDef p id bases keywords inner decorators =>
      rw [completed, List.map_append, statementsWithin]
      exact List.perm_append_comm.subperm.trans
        ((List.subperm_cons _).mpr (completedAll_subperm inner (path ++ [id])))
    | _ => rw [completed_eq_nil rfl]; exact List.nil_subperm
  termination_by ns => sizeOf ns

theorem completed_subperm (n : Node) (path : List String) :
    ((n.completed path).map Prod.snd).Subperm (n :: statementsWithin n) := by
  simpa [completedAll, allStatements] using completedAll_subperm [n] path

/-- What is listed of a module is listed of the blocks of its level. -/
theorem completedAll_textStatements_subperm :
    (∀ n, ((completedAll [] (textWithin n)).map Prod.snd).Subperm (statementsWithin n)) ∧
    (∀ hs, ((completedAll [] (textHandlers hs)).map Prod.snd).Subperm (armStatements hs)) ∧
    ∀ ns, ((completedAll [] (textStatements ns)).map Prod.snd).Subperm (allStatements ns) := by
  have happend {ns ns' xs xs' : List Node}
      (h : ((completedAll [] ns).map Prod.snd).Subperm xs)
      (h' : ((completedAll [] ns').map Prod.snd).Subperm xs') :
      ((completedAll [] (ns ++ ns')).map Prod.snd).Subperm (xs ++ xs') := by
    rw [completedAll_eq_flatMap, List.flatMap_append, ← completedAll_eq_flatMap,
      ← completedAll_eq_flatMap, List.map_append]
    exact h.append h'
  refine level_induction ?flat ?branch ?guarded ?within ?handler ?noHandler ?handlers ?nothing
    ?statements
  case flat =>
    intro n hflat
    rw [textWithin_of_not_opensBlock hflat]
    exact List.nil_subperm
  case branch => exact fun _ _ _ _ hbody horElse => happend hbody horElse
  case guarded =>
    intro p group body handlers orElse final hbody horElse hfinal hhandlers
    exact happend (happend (happend hbody hhandlers) horElse) hfinal
  case within => exact fun _ _ _ _ hbody => hbody
  case handler => exact fun _ _ _ _ hbody => hbody
  case noHandler => exact List.nil_subperm
  case handlers => exact fun _ _ hn hrest => happend hn hrest
  case nothing => exact List.nil_subperm
  case statements =>
    intro n rest hn hrest
    rw [textStatements, allStatements, ← List.cons_append, ← List.cons_append]
    refine happend ?_ hrest
    -- a class opens no block, and what opens a block is no class
    cases hname : n.className? with
    | none =>
      rw [completedAll, completed_eq_nil hname, List.nil_append]
      exact hn.cons_right n
    | some name =>
      have hflat : n.opensBlock = false := by
        cases n with
        | classDef => rfl
        | _ => cases hname
      rw [textWithin_of_not_opensBlock hflat, completedAll, completedAll, List.append_nil]
      exact completed_subperm n []

theorem completedAll_moduleStatements_subperm (body : List Node) :
    ((completedAll [] (moduleStatements body)).map Prod.snd).Subperm (allStatements body) := by
  have hperm : (completedAll [] (moduleStatements body)).Perm
      (completedAll [] (textStatements body)) := by
    rw [completedAll_eq_flatMap, completedAll_eq_flatMap]
    exact (moduleStatements_perm_textStatements body).flatMap_right _
  exact (hperm.map Prod.snd).subperm.trans (completedAll_textStatements_subperm.2.2 body)

/-! ### Declared in this order -/

/-- A declared class is that of a statement with some classes around it: it stands where the
statement does, and is named by the statement and the classes. -/
structure ClassDecl.IsOf (d : ClassDecl) (path : List String) (n : Node) : Prop where
  position : d.position = n.position
  name : n.className? = some d.symbol.name
  container : d.symbol.label.container = containerOf path
  qualified : d.symbol.qualifiedName = joinDots (path ++ [d.symbol.name])

/-- Classes are declared from class statements one by one, in the order in which these are
complete. -/
theorem forall₂_isOf_completedAll {m : SourceModule} : ∀ (ns : List Node) (path : List String),
    (∀ name ∈ path, IsWord name) → (∀ n ∈ ns, n.Written []) →
      List.Forall₂ (fun e (d : ClassDecl) => d.IsOf e.1 e.2) (completedAll path ns)
        ((extractClasses m (containerOf path) ns).flatMap Extracted.all)
  | [], _, _, _ => by
    rw [extractClasses]
    exact .nil
  | n :: rest, path, hpath, h => by
    obtain ⟨hn, hrest⟩ := List.forall_mem_cons.mp h
    rw [completedAll, extractClasses, List.flatMap_append]
    refine List.rel_append ?_ (forall₂_isOf_completedAll rest path hpath hrest)
    cases n with
    | classDef p name bases keywords inner decorators =>
      have hname : IsWord name := hn.isWord _ List.mem_cons_self
      have hinner : ∀ s ∈ inner, s.Written [] := fun s hs => hn.of_mem (by simp [Node.parts, hs])
      have hwords : ∀ id ∈ path ++ [name], IsWord id :=
        List.forall_mem_append.mpr ⟨hpath, List.forall_mem_singleton.mpr hname⟩
      rw [completed, extractClass, Option.toList_some, List.flatMap_singleton, Extracted.all_of,
        ← containerOf_concat hpath]
      refine List.rel_append (forall₂_isOf_completedAll inner (path ++ [name]) hwords hinner) ?_
      exact .cons ⟨rfl, rfl, rfl, qualify_containerOf hpath name⟩ .nil
    | _ => rw [completed_eq_nil rfl, extractClass] <;> first | exact .nil | simp
  termination_by ns => sizeOf ns

/-! ### Modules -/

/-- The last of some things that all give something gives the last of what they give. -/
theorem getLast?_filterMap_of_isSome {α β : Type} {f : α → Option β} {l : List α}
    (h : ∀ a ∈ l, (f a).isSome) : (l.filterMap f).getLast? = l.getLast?.bind f := by
  induction l using List.reverseRecOn with
  | nil => rfl
  | append_singleton l last _ =>
    obtain ⟨b, hb⟩ := Option.isSome_iff_exists.mp (h last (by simp))
    rw [List.filterMap_append, List.filterMap_cons_some hb, List.filterMap_nil]
    simp [hb]

/-- What is related one by one is related to something. -/
theorem exists_of_forall₂ {α β : Type} {R : α → β → Prop} {l : List α} {l' : List β}
    (h : List.Forall₂ R l l') : (∀ a ∈ l, ∃ b ∈ l', R a b) ∧ ∀ b ∈ l', ∃ a ∈ l, R a b := by
  induction h with
  | nil => simp
  | cons hab _ ih =>
    obtain ⟨hleft, hright⟩ := ih
    simp only [List.forall_mem_cons, List.exists_mem_cons_iff]
    exact ⟨⟨.inl hab, fun a ha => .inr (hleft a ha)⟩, .inl hab, fun b hb => .inr (hright b hb)⟩

/-- Of declared classes at different positions each one is found at its own. -/
theorem ModuleDecls.classAt?_eq_some {decls : ModuleDecls} {d : ClassDecl}
    (h : (decls.classes.map ClassDecl.position).Nodup) (hd : d ∈ decls.classes) :
    decls.classAt? d.position = some d := by
  obtain ⟨d', hd'⟩ : ∃ d', decls.classAt? d.position = some d' :=
    Option.isSome_iff_exists.mp (List.find?_isSome.mpr ⟨d, hd, by simp⟩)
  have hposition : d'.position = d.position := by simpa using List.find?_some hd'
  rw [hd', List.inj_on_of_nodup_map h (List.mem_of_find?_eq_some hd') hd hposition]

namespace SourceModule

variable {m : SourceModule}

/-- What a module declares is what is reached in it. Statements are known by their places. -/
structure DeclaresReached (m : SourceModule) : Prop where
  /-- No two statements of the text, wherever they stand, have the same place. -/
  apart : ((allStatements m.body).map Node.position).Nodup
  /-- Of all class statements of the text those are declared that are reached. -/
  declared_iff : ∀ n ∈ allStatements m.body, n.className?.isSome →
    ((∃ d ∈ (extractModule m).classes, d.position = n.position) ↔ ∃ path, Reached m.body path n)
  /-- Nothing else is declared. -/
  reached : ∀ d ∈ (extractModule m).classes, ∃ path n, Reached m.body path n ∧ d.IsOf path n
  /-- What is declared at the place of a class that is reached is named by the classes around it. -/
  named : ∀ path n, Reached m.body path n → n.className?.isSome →
    ∃ d, (extractModule m).classAt? n.position = some d ∧ d.IsOf path n
  /-- Nothing is declared twice. -/
  once : ((extractModule m).classes.map ClassDecl.position).Nodup
  /-- A class is declared after all classes within it. -/
  nestedFirst : ∀ path c n, Reached m.body path c → c.className?.isSome → c.Nests n →
    n.className?.isSome →
      [n.position, c.position].Sublist ((extractModule m).classes.map ClassDecl.position)
  /-- The classes of the module level are those that are reached through blocks alone. -/
  level : ∀ n, n.className?.isSome → (n ∈ moduleStatements m.body ↔ Reached m.body [] n)
  /-- Of the classes of the module level that have one name the last one is found under it. -/
  last : ∀ name, (extractModule m).topLevel.find? name =
    ((moduleStatements m.body).filter fun n => n.className? = some name).getLast?.bind fun n =>
      ((extractModule m).classAt? n.position).map fun d => (d.position, d.symbol)

theorem own_mem_classes {n : Node} {x : Extracted} (hn : n ∈ moduleStatements m.body)
    (hx : extractClass m none n = some x) :
    x.own ∈ (extractModule m).classes ∧ x.own.position = n.position := by
  cases n with
  | classDef p name bases keywords body decorators =>
    refine ⟨List.mem_flatMap.mpr ⟨x, List.mem_filterMap.mpr ⟨_, hn, hx⟩, ?_⟩, ?_⟩
    · rw [extractClass] at hx
      cases hx
      exact Extracted.mem_all_of.mpr (.inr rfl)
    · rw [extractClass] at hx
      cases hx
      rfl
  | _ => simp [extractClass] at hx

/-- What a name of the module level is entered with. -/
theorem find?_topLevel (h : ((extractModule m).classes.map ClassDecl.position).Nodup)
    (name : String) : (extractModule m).topLevel.find? name =
      ((moduleStatements m.body).filter fun n => n.className? = some name).getLast?.bind fun n =>
        ((extractModule m).classAt? n.position).map fun d => (d.position, d.symbol) := by
  set named := (moduleStatements m.body).filter fun n => n.className? = some name with hnamed
  have hmem {n : Node} (hn : n ∈ named) :
      n ∈ moduleStatements m.body ∧ n.className? = some name := by
    simpa [hnamed] using hn
  have hextracted {n : Node} (hn : n ∈ named) : ∃ x, extractClass m none n = some x := by
    cases n with
    | classDef => exact ⟨_, rfl⟩
    | _ => cases (hmem hn).2
  have hfilter : (m.statements.filter fun x => x.entry.1 = name) =
      named.filterMap (extractClass m none) := by
    rw [statements, hnamed, List.filter_filterMap, List.filterMap_filter]
    refine List.filterMap_congr fun n _ => ?_
    rw [← map_name_extractClass m none n]
    cases extractClass m none n with
    | none => rfl
    | some x =>
      by_cases hx : x.own.symbol.name = name
      · simp [Option.filter, Extracted.entry, hx]
      · simp [Option.filter, Extracted.entry, hx]
  have hfind : (extractModule m).topLevel.find? name =
      ((m.statements.filter fun x => x.entry.1 = name).getLast?).map fun x => x.entry.2 :=
    Table.find?_foldl_insert Extracted.entry m.statements name
  rw [hfind, hfilter, getLast?_filterMap_of_isSome fun n hn =>
    Option.isSome_iff_exists.mpr (hextracted hn)]
  cases hlast : named.getLast? with
  | none => rfl
  | some n =>
    have hn := List.mem_of_getLast? hlast
    obtain ⟨x, hx⟩ := hextracted hn
    obtain ⟨hown, hposition⟩ := own_mem_classes (hmem hn).1 hx
    rw [Option.bind_some, Option.bind_some, hx, ← hposition, ModuleDecls.classAt?_eq_some h hown]
    rfl

/-- The listed class statements of a module. -/
def listed (m : SourceModule) : List (List String × Node) :=
  completedAll [] (moduleStatements m.body)

section

variable {source : String}

theorem handled_of_parseModule (h : parseModule source = .ok m.body) :
    ∀ n ∈ moduleStatements m.body, n.Handled := by
  intro n hn
  refine (pairwise_before_textStatements h).2 n ?_
  exact (moduleStatements_perm_textStatements m.body).mem_iff.mp hn

/-- No two statements of a text stand at one place. -/
theorem nodup_position_allStatements (h : parseModule source = .ok m.body) :
    ((allStatements m.body).map Node.position).Nodup := by
  refine (pairwise_before_allStatements h).1.imp fun {p q} hbefore heq => ?_
  subst heq
  exact hbefore.asymm hbefore

theorem mem_listed_iff (h : parseModule source = .ok m.body) {path : List String} {n : Node} :
    (path, n) ∈ m.listed ↔ Reached m.body path n ∧ n.className?.isSome :=
  mem_completedAll_iff (handled_of_parseModule h)

/-- A listed statement is known by its place among all statements of the text. -/
theorem eq_of_position_eq (h : parseModule source = .ok m.body) {e : List String × Node}
    (he : e ∈ m.listed) {n : Node} (hn : n ∈ allStatements m.body)
    (hposition : e.2.position = n.position) : e.2 = n := by
  have hmem : e.2 ∈ allStatements m.body :=
    (completedAll_moduleStatements_subperm m.body).subset (List.mem_map_of_mem he)
  exact List.inj_on_of_nodup_map (nodup_position_allStatements h) hmem hn hposition

/-- Classes are declared from the listed statements, one by one. -/
theorem forall₂_isOf_listed (h : parseModule source = .ok m.body) :
    List.Forall₂ (fun e (d : ClassDecl) => d.IsOf e.1 e.2) m.listed (extractModule m).classes := by
  have hforall := forall₂_isOf_completedAll (m := m) (moduleStatements m.body) []
    (List.forall_mem_nil _) (Node.written_moduleStatements m.body (written_of_parseModule h))
  rwa [extractClasses_eq] at hforall

/-- So they stand where these do, in the same order. -/
theorem map_position_classes (h : parseModule source = .ok m.body) :
    (extractModule m).classes.map ClassDecl.position =
      (m.listed.map Prod.snd).map Node.position := by
  rw [List.map_map, ← List.forall₂_eq_eq_eq, List.forall₂_map_left_iff, List.forall₂_map_right_iff]
  exact ((forall₂_isOf_listed h).imp fun e d hof => hof.position.symm).flip.imp fun d e => Eq.symm

theorem nodup_position_classes (h : parseModule source = .ok m.body) :
    ((extractModule m).classes.map ClassDecl.position).Nodup := by
  obtain ⟨ns, hperm, hsublist⟩ := completedAll_moduleStatements_subperm m.body
  rw [map_position_classes h, listed, ← (hperm.map Node.position).nodup_iff]
  exact (nodup_position_allStatements h).sublist (hsublist.map _)

end

/-- **A module that is read declares its classes that are not local, and no others**: of all class
statements in its text, those that are reached through nested branches, guards and contexts and then
through nested classes. Each is declared once, behind the classes within it, with the names of the
classes around it; and a name of the module level is that of the last class of this name in the list
of its statements. -/
theorem declaresReached {source : String} (h : parseModule source = .ok m.body) :
    m.DeclaresReached := by
  obtain ⟨hdeclared, hlisted⟩ := exists_of_forall₂ (forall₂_isOf_listed h)
  have honce := nodup_position_classes h
  have hreached {e : List String × Node} (he : e ∈ m.listed) : Reached m.body e.1 e.2 :=
    ((mem_listed_iff h).mp he).1
  refine ⟨nodup_position_allStatements h, fun n hn hname => ⟨?_, ?_⟩, fun d hd => ?_,
    fun path n hn hname => ?_, honce, fun path c n hc hcname hn hname => ?_,
    fun n => mem_moduleStatements_iff (handled_of_parseModule h), find?_topLevel honce⟩
  · rintro ⟨d, hd, hposition⟩
    obtain ⟨e, he, hof⟩ := hlisted d hd
    obtain rfl := eq_of_position_eq h he hn (hof.position.symm.trans hposition)
    exact ⟨e.1, hreached he⟩
  · rintro ⟨path, hpath⟩
    obtain ⟨d, hd, hof⟩ := hdeclared (path, n) ((mem_listed_iff h).mpr ⟨hpath, hname⟩)
    exact ⟨d, hd, hof.position⟩
  · obtain ⟨e, he, hof⟩ := hlisted d hd
    exact ⟨e.1, e.2, hreached he, hof⟩
  · obtain ⟨d, hd, hof⟩ := hdeclared (path, n) ((mem_listed_iff h).mpr ⟨hn, hname⟩)
    exact ⟨d, hof.position ▸ ModuleDecls.classAt?_eq_some honce hd, hof⟩
  · obtain ⟨name, hcname'⟩ := Option.isSome_iff_exists.mp hcname
    obtain ⟨path', hn'⟩ := exists_mem_completedAll_of_nests hn hname path hcname'
    have hsublist := completed_sublist_of_reached (handled_of_parseModule h) hc hcname
    rw [completed_of_className? hcname'] at hsublist
    have hpair : [(path', n), (path, c)].Sublist m.listed :=
      ((List.singleton_sublist.mpr hn').append (List.Sublist.refl [(path, c)])).trans hsublist
    rw [map_position_classes h]
    exact (hpair.map Prod.snd).map Node.position

/-- Two of the classes here are nested and one that stands in a handler has the name of the first;
the others are in a branch within a class, in a loop and in a function. -/
theorem declaresReached_shadowed :
    let source := "if a:\n class A:\n  class B:\n   class C: pass\n  if b:\n   class D: pass\n" ++
      "else:\n try: pass\n except* E:\n  class A: pass\n" ++
      "for x in y:\n class F: pass\ndef f():\n class G: pass\n"
    let m := readModule "m" source
    parseModule source = .ok m.body ∧ m.DeclaresReached ∧
      (extractModule m).classes.map (fun d => (d.position.line, d.symbol.qualifiedName)) =
        [(3, "A.B.C"), (2, "A.B"), (1, "A"), (9, "A")] ∧
      (extractModule m).topLevel.map (fun e => (e.1, e.2.1.line)) = [("A", 9)] := by
  intro source m
  have hread : (parseModule source).toOption.isSome ∧
      (extractModule m).classes.map (fun d => (d.position.line, d.symbol.qualifiedName)) =
        [(3, "A.B.C"), (2, "A.B"), (1, "A"), (9, "A")] ∧
      (extractModule m).topLevel.map (fun e => (e.1, e.2.1.line)) = [("A", 9)] := by
    decide +kernel
  have hparsed : parseModule source = .ok m.body := parseModule_readModule hread.1
  exact ⟨hparsed, declaresReached hparsed, hread.2⟩

end SourceModule

end Concordance
