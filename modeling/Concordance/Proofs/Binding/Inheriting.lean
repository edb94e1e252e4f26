import Concordance.Proofs.Binding.Order
import Concordance.Proofs.Binding.Provenance

/-!
# Base classes as a walk sees them

The bases of a class are expressions in its statement, and they are looked into twice. When base
classes are found, names are looked up among those of the module, for a class within another one as
well. When a walk comes to the statement, they are looked up in the scopes that are open there, and
in the body of a class the names bound there come first. So a class whose base stands beside it in
the body of a class has no base classes, although the walk records a reference to its base:
`not_always_inherited`.

Where the names that a base expression is resolved by are not bound in that body, or to nothing else
than in the module, the two agree, with two more provisos. The answer must be known, since base
classes are found one after the other and answers are kept on the way; and `super()` in a base
expression has a meaning in the body of a class only.

## Main definitions

* `Codebase.versionsOf`: the versions of a codebase until all base classes have been found
* `ComesTo`: a walk comes to the statement of a class

## Main results

* `mem_basesOf_of_resolveIn`: what a walk finds as a base class is one
* `not_always_inherited`: a base class beside the class itself
-/

namespace Concordance.Binding

open Codebase Syntax

/-! ### Versions -/

/-- The versions of a codebase that there are until all base classes have been found. -/
def Codebase.versionsOf (modules : List ModuleDecls) : List Codebase :=
  Environment.versions ⟨ofModules modules, []⟩ ((ofModules modules).baseTurns.map turn)

namespace Environment

theorem versions_subset_append (e : Environment) (events later : List Event) :
    e.versions events ⊆ e.versions (events ++ later) := by
  induction events generalizing e with
  | nil => exact List.cons_subset.mpr ⟨e.codebase_mem_versions later, List.nil_subset _⟩
  | cons event events ih => exact List.cons_subset_cons _ (ih (e.step event))

/-- Base classes that have been found stay. -/
theorem basesOf_subset_run (e : Environment) (turns : List (ClassId × Node)) (k : ClassId) :
    e.codebase.basesOf k ⊆ (e.run (turns.map turn)).codebase.basesOf k := by
  induction turns generalizing e with
  | nil => exact List.Subset.refl _
  | cons t turns ih =>
    have hstep : e.codebase.basesOf k ⊆ (e.step (turn t)).codebase.basesOf k := by
      rw [basesOf_step]
      exact List.subset_append_left _ _
    exact List.Subset.trans hstep (ih (e.step (turn t)))

/-- What is found when a base expression has its turn is there in the end. -/
theorem baseOf_subset_run (e : Environment) {turns before after : List (ClassId × Node)}
    {k : ClassId} {n : Node} (h : turns = before ++ (k, n) :: after) :
    baseOf k (((baseQuery k n).ask (e.run (before.map turn)).codebase).run
        (e.run (before.map turn)).kept).1 ⊆ (e.run (turns.map turn)).codebase.basesOf k := by
  have hrun : e.run (turns.map turn) =
      ((e.run (before.map turn)).step (turn (k, n))).run (after.map turn) := by
    rw [h, List.map_append, run_append]
    rfl
  rw [hrun]
  refine List.Subset.trans ?_ (basesOf_subset_run _ after k)
  rw [basesOf_step, if_pos rfl]
  exact List.subset_append_right _ _

end Environment

/-! ### Walks -/

section

variable {vs : List Codebase} {c : Codebase}

/-- What all replies keep, a walk keeps. -/
theorem keeps_walk {I : Cache → Prop} (hq : ∀ Q, c.Asks Q → Keeps I (c.ask.reply Q)) (m : Nat)
    (xs : List Step) (w : Walk) : Keeps I (xs.foldlM (perform c c.ask m) w) := by
  have hkeeps := congruence_keeps I
  refine hkeeps.toSequential.foldlM (g := perform c c.ask m) (fun w s _ => ?_) w
  exact hkeeps.perform (p := c.ask) hq m w fun _ _ why _ => hkeeps.throw why

/-- It is kept when the references of modules are collected. -/
theorem keeps_mapM_references {I : Cache → Prop} (hq : ∀ Q, c.Asks Q → Keeps I (c.ask.reply Q))
    (ms : List Nat) : Keeps I (ms.mapM (references c)) := by
  have hkeeps := congruence_keeps I
  induction ms with
  | nil => exact hkeeps.pure []
  | cons m rest ih =>
    rw [List.mapM_cons]
    refine Keeps.bind ?_ fun found => ih.bind fun more => hkeeps.pure (found :: more)
    exact (keeps_walk hq m _ {}).bind fun w => hkeeps.pure w.found.reverse

/-- A walk resolves a base expression to what is known of it, where the names that it is resolved by
are bound around the class to nothing else than in the module. -/
theorem run_resolveIn_of_settles {k : ClassId} {n : Node} {r : Except Fault (Option Denotation)}
    (h : (baseQuery k n).Settles vs r) (houtlined : c.Outlined) (hc : c ∈ vs) {s : Cache}
    (hs : Right vs s) {w : Walk}
    (hscopes : ∀ id ∈ (Designator.ofNode (bareBase n)).asked, ∀ b,
      findInScopes id w.scopes = some b → Codebase.Settles vs k.moduleIndex id (.ok (some b)))
    (hsuper : "super" ∈ (Designator.ofNode (bareBase n)).asked → w.enclosing = none) :
    ((resolveIn c c.ask k.moduleIndex w (.ofNode (bareBase n))).run s).1 = r := by
  obtain ⟨hr, depth, hdepth⟩ := h
  have hanswer : (((baseQuery k n).askWith c (unfolded vs depth).questions).run []).1 = r :=
    (eq_agreed (by rw [show agreed _ _ = r from hdepth]; exact hr) hc).trans hdepth
  have hq : ∀ Q, c.Asks Q → Follows (Right vs) True (c.ask.reply Q)
      ((unfolded vs depth).questions.reply Q) :=
    fun Q hQ => (keeps_and_follows hc c.depth hQ leads_nothing).2 depth
  have hlookup : ∀ id ∈ (Designator.ofNode (bareBase n)).asked, Follows (Right vs) True
      (lookupIn c.ask k.moduleIndex w id)
      ((unfolded vs depth).questions.exported k.moduleIndex id) := by
    intro id hid
    rw [lookupIn]
    cases hfound : findInScopes id w.scopes with
    | none => exact hq (.ofName k.moduleIndex id) trivial
    | some b =>
      obtain ⟨-, d, hd⟩ := hscopes id hid b hfound
      intro s t hs ht
      have hknown : Known vs d (.ofName k.moduleIndex id) := by
        rw [Known, hd]
        intro htoo
        cases htoo
      have heq : unfolded vs depth (.ofName k.moduleIndex id) = .ok (some b) :=
        (unfolded_eq_of_known ht hknown).trans hd
      exact ⟨hs, .inl heq.symm⟩
  have hfollows : Follows (Right vs) True
      (resolveIn c c.ask k.moduleIndex w (.ofNode (bareBase n)))
      ((baseQuery k n).askWith c (unfolded vs depth).questions) :=
    (congruence_follows _ True).toSequential.resolve_of_asked hq hlookup hsuper
  have hunlimited : Unlimited (resolveIn c c.ask k.moduleIndex w (.ofNode (bareBase n))) :=
    congruence_unlimited.resolveIn (p := c.ask) (fun Q hQ => unlimited_ask houtlined hQ) _ w _
  obtain ⟨-, heq⟩ := hfollows s [] hs (by rw [hanswer]; exact hr)
  rw [hanswer] at heq
  exact heq.resolve_right fun hdeep => hunlimited s hdeep.2

end

/-! ### Class statements -/

/-- When the references of some modules have been collected, a walk through the module of a class
comes to its statement: in the scopes of `w`, with the answers `s` kept. -/
def ComesTo (c : Codebase) (kept : Cache) (earlier : List Nat) (k : ClassId) (w : Walk)
    (s : Cache) : Prop :=
  ∃ d front name back, c.modules[k.moduleIndex]? = some d ∧
    stepsAll d.source.body = front ++ .openClass name k.position :: back ∧
    (front.foldlM (perform c c.ask k.moduleIndex) {}).run
      ((earlier.mapM (references c)).run kept).2 = (.ok w, s)

theorem mem_classIds {c : Codebase} {k : ClassId} {decl : ClassDecl}
    (h : c.classDecl? k = some decl) : k ∈ c.classIds := by
  obtain ⟨d, hd, hdecl⟩ := Option.bind_eq_some_iff.mp h
  obtain ⟨hm, hmodule⟩ := List.getElem?_eq_some_iff.mp hd
  have hposition : decl.position = k.position := by simpa using List.find?_some hdecl
  refine List.mem_flatten.mpr ⟨_, List.mem_mapIdx.mpr ⟨k.moduleIndex, hm, rfl⟩, ?_⟩
  rw [hmodule]
  exact List.mem_map.mpr ⟨decl, List.mem_of_find?_eq_some hdecl, by rw [hposition]⟩

theorem mem_baseTurns {c : Codebase} {k : ClassId} {decl : ClassDecl}
    (h : c.classDecl? k = some decl) {n : Node} (hn : n ∈ decl.baseExprs) : (k, n) ∈ c.baseTurns := by
  refine List.mem_flatMap.mpr ⟨k, mem_classIds h, List.mem_map.mpr ⟨n, ?_, rfl⟩⟩
  rw [h]
  exact hn

/-- **What a walk finds as a base class is one.** The base classes of all classes have been found,
and a walk comes to the statement of a class and resolves one of its base expressions to another
class. That is a base class of it if the base expression has a known answer, the names that it is
resolved by are bound in the scopes there to nothing else than in the module, and `super` is none of
them unless no class is around. -/
theorem mem_basesOf_of_resolveIn {modules : List ModuleDecls} {c : Codebase} {kept s : Cache}
    {earlier : List Nat} {k b : ClassId} {w : Walk} {decl : ClassDecl} {n : Node} {aliased : Bool}
    (hc : (ofModules modules).resolveBases.run [] = (.ok c, kept))
    (hwalk : ComesTo c kept earlier k w s) (hdecl : c.classDecl? k = some decl)
    (hn : n ∈ decl.baseExprs)
    (hb : ((resolveIn c c.ask k.moduleIndex w (.ofNode (bareBase n))).run s).1 =
      .ok (some (.classObject b aliased))) (hne : b ≠ k)
    (hknown : ∃ r, (baseQuery k n).Settles (versionsOf modules) r)
    (hscopes : ∀ id ∈ (Designator.ofNode (bareBase n)).asked, ∀ b,
      findInScopes id w.scopes = some b →
        Codebase.Settles (versionsOf modules) k.moduleIndex id (.ok (some b)))
    (hsuper : "super" ∈ (Designator.ofNode (bareBase n)).asked → w.enclosing = none) :
    b ∈ c.basesOf k := by
  obtain ⟨r, hr⟩ := hknown
  let e : Environment := ⟨ofModules modules, []⟩
  have hrun : e.run ((ofModules modules).baseTurns.map turn) = ⟨c, kept⟩ :=
    Environment.run_resolveBases hc
  have houtlined (events : List Event) : (e.run events).codebase.Outlined := by
    obtain ⟨bases, hbases⟩ := Environment.exists_bases_run e events
    rw [hbases]
    exact outlined_ofModules modules bases
  -- The walk finds what is known.
  obtain ⟨hright, hlast⟩ := Environment.right_run (e := e) (fun c hc => hc)
    (right_nil (versionsOf modules))
  rw [hrun] at hright hlast
  have hright' : Right (versionsOf modules) s := by
    obtain ⟨d, front, name, back, -, -, hfront⟩ := hwalk
    have hkeeps : ∀ Q, c.Asks Q → Keeps (Right (versionsOf modules)) (c.ask.reply Q) :=
      fun Q hQ => keeps_ask hlast hQ
    have hearlier := keeps_mapM_references hkeeps earlier kept hright
    have hkept := keeps_walk hkeeps k.moduleIndex front {} _ hearlier
    rwa [hfront] at hkept
  have houtlined' : c.Outlined := by
    have hall := houtlined ((ofModules modules).baseTurns.map turn)
    rwa [hrun] at hall
  have hwalked := run_resolveIn_of_settles hr houtlined' hlast hright' hscopes hsuper
  rw [hb] at hwalked
  -- So did the turn of the base expression.
  have hmodules : (ofModules modules).classDecl? k = some decl := by
    obtain ⟨bases, rfl⟩ := exists_bases_of_resolveBases (congrArg Prod.fst hc)
    exact hdecl
  obtain ⟨before, after, hturns⟩ := List.append_of_mem (mem_baseTurns hmodules hn)
  have hversions : ∀ c ∈ e.versions (before.map turn), c ∈ versionsOf modules := by
    rw [versionsOf, hturns, List.map_append]
    exact fun c hc => e.versions_subset_append _ _ hc
  obtain ⟨hright₀, hlast₀⟩ := Environment.right_run hversions (right_nil (versionsOf modules))
  have hfound := e.baseOf_subset_run hturns
  rw [hr.run_ask (houtlined _) hlast₀ hright₀, ← hwalked, hrun] at hfound
  refine hfound ?_
  rw [baseOf, if_neg hne]
  exact List.mem_singleton_self b

theorem run_eq_of_fst {α : Type} {x : Resolve α} {s : Cache} {r : Except Fault α}
    (h : (x.run s).1 = r) : x.run s = (r, (x.run s).2) := Prod.ext h rfl

/-- A walk that can be run comes to the statement of a class, and an expression is resolved there. -/
theorem exists_comesTo {c : Codebase} {kept : Cache} {k : ClassId} {d : ModuleDecls} {name : String}
    {front back : List Step} {x : Designator} {found : Option Denotation} {α : Type} {f : Walk → α}
    {a : α} (hmodule : c.modules[k.moduleIndex]? = some d)
    (hsteps : stepsAll d.source.body = front ++ .openClass name k.position :: back)
    (hrun : ((front.foldlM (perform c c.ask k.moduleIndex) {} >>= fun w =>
      (fun b => (f w, b)) <$> resolveIn c c.ask k.moduleIndex w x).run kept).1.toOption =
        some (a, found)) :
    ∃ w s, ComesTo c kept [] k w s ∧ f w = a ∧
      ((resolveIn c c.ask k.moduleIndex w x).run s).1 = .ok found := by
  rw [run_bind] at hrun
  rcases hwalk : (front.foldlM (perform c c.ask k.moduleIndex) {}).run kept with ⟨e | w, s⟩
  · rw [hwalk] at hrun
    cases hrun
  · rw [hwalk] at hrun
    dsimp only at hrun
    rw [map_eq_pure_bind, run_bind] at hrun
    refine ⟨w, s, ⟨d, front, name, back, hmodule, hsteps, hwalk⟩, ?_⟩
    rcases hx : (resolveIn c c.ask k.moduleIndex w x).run s with ⟨e | b, s'⟩
    · rw [hx] at hrun
      cases hrun
    · rw [hx] at hrun
      obtain ⟨rfl, rfl⟩ := Prod.mk.inj (Option.some.inj hrun)
      exact ⟨rfl, rfl⟩

/-- A base expression of a class that can be read off. -/
theorem exists_baseExpr {c : Codebase} {k : ClassId} {x : Designator}
    (h : (c.classDecl? k).map (fun d => d.baseExprs.map fun n => Designator.ofNode (bareBase n)) =
      some [x]) :
    ∃ decl n, c.classDecl? k = some decl ∧ n ∈ decl.baseExprs ∧
      Designator.ofNode (bareBase n) = x := by
  obtain ⟨decl, hdecl, hexprs⟩ := Option.map_eq_some_iff.mp h
  obtain ⟨n, rest, hbase, hn, -⟩ := List.map_eq_cons_iff.mp hexprs
  exact ⟨decl, n, hdecl, by rw [hbase]; exact List.mem_cons_self, hn⟩

/-- A class within another one has a base class of the module. -/
theorem mem_basesOf_of_resolveIn_module :
    let d := extractModule (readModule "m"
      "class Base:\n    pass\nclass Outer:\n    class Inner(Base):\n        pass\n")
    let modules := [d]
    let k : ClassId := ⟨0, ⟨3, 4⟩⟩
    let b : ClassId := ⟨0, ⟨0, 0⟩⟩
    let c : Codebase := { ofModules modules with bases := [(k, [b])] }
    ∃ kept w s decl n, (ofModules modules).resolveBases.run [] = (.ok c, kept) ∧
      ComesTo c kept [] k w s ∧ c.classDecl? k = some decl ∧ n ∈ decl.baseExprs ∧
      ((resolveIn c c.ask 0 w (.ofNode (bareBase n))).run s).1 = .ok (some (.classObject b false)) ∧
      b ≠ k ∧ (∃ r, (baseQuery k n).Settles (versionsOf modules) r) ∧
      (∀ id ∈ (Designator.ofNode (bareBase n)).asked, findInScopes id w.scopes = none) ∧
      b ∈ c.basesOf k := by
  intro d modules k b c
  have hc : ((ofModules modules).resolveBases.run []).1 = .ok c := resolveBases_eq (by decide +kernel)
  obtain ⟨decl, n, hdecl, hn, hname⟩ :=
    exists_baseExpr (c := c) (k := k) (x := .name "Base") (by decide +kernel)
  let xs := stepsAll d.source.body
  have hsteps : xs = xs.take 4 ++ .openClass "Inner" k.position :: xs.drop 5 := by decide +kernel
  have hfound : (((xs.take 4).foldlM (perform c c.ask 0) {} >>= fun w =>
      (fun b => (findInScopes "Base" w.scopes, b)) <$> resolveIn c c.ask 0 w (.name "Base")).run
        ((ofModules modules).resolveBases.run []).2).1.toOption =
          some (none, some (.classObject b false)) := by decide +kernel
  obtain ⟨w, s, hwalk, hfree, hb⟩ := exists_comesTo (c := c) (k := k) (d := d) rfl hsteps hfound
  rw [← hname] at hb
  have hknown : (baseQuery k n).Settles (versionsOf modules)
      (.ok (some (.classObject b false))) := by
    refine ⟨nofun, 2, ?_⟩
    show agreed _ (fun c => ((resolve c _ _ none (.ofNode (bareBase n))).run []).1) = _
    rw [hname]
    decide +kernel
  have hscopes : ∀ id ∈ (Designator.ofNode (bareBase n)).asked,
      findInScopes id w.scopes = none := by
    rw [hname]
    exact List.forall_mem_singleton.mpr hfree
  have hsuper : "super" ∉ (Designator.ofNode (bareBase n)).asked := by
    rw [hname]
    decide
  have hrun := run_eq_of_fst hc
  refine ⟨_, w, s, decl, n, hrun, hwalk, hdecl, hn, hb, by decide, ⟨_, hknown⟩, hscopes, ?_⟩
  exact mem_basesOf_of_resolveIn hrun hwalk hdecl hn hb (by decide) ⟨_, hknown⟩
    (fun id hid b hfound => by rw [hscopes id hid] at hfound; cases hfound)
    fun h => absurd h hsuper

/-- A class whose base stands beside it in the body of a class has no base classes, although the
walk comes to that base. -/
theorem not_always_inherited :
    ¬ ∀ (modules : List ModuleDecls) (c : Codebase) (kept s : Cache) (earlier : List Nat)
      (k b : ClassId) (w : Walk) (decl : ClassDecl) (n : Node) (aliased : Bool),
      (ofModules modules).resolveBases.run [] = (.ok c, kept) → ComesTo c kept earlier k w s →
      c.classDecl? k = some decl → n ∈ decl.baseExprs →
      ((resolveIn c c.ask k.moduleIndex w (.ofNode (bareBase n))).run s).1 =
        .ok (some (.classObject b aliased)) →
      b ≠ k → b ∈ c.basesOf k := by
  intro h
  let d := extractModule <| readModule "m" <|
    "class Outer:\n    class Base:\n        def f(self):\n            pass\n" ++
    "    class Inner(Base):\n        pass\n"
  let modules := [d]
  let k : ClassId := ⟨0, ⟨4, 4⟩⟩
  let b : ClassId := ⟨0, ⟨1, 4⟩⟩
  let c : Codebase := { ofModules modules with bases := [] }
  have hc : ((ofModules modules).resolveBases.run []).1 = .ok c := resolveBases_eq (by decide +kernel)
  obtain ⟨decl, n, hdecl, hn, hname⟩ :=
    exists_baseExpr (c := c) (k := k) (x := .name "Base") (by decide +kernel)
  let xs := stepsAll d.source.body
  have hsteps : xs = xs.take 6 ++ .openClass "Inner" k.position :: xs.drop 7 := by decide +kernel
  have hfound : (((xs.take 6).foldlM (perform c c.ask 0) {} >>= fun w =>
      (fun b => ((), b)) <$> resolveIn c c.ask 0 w (.name "Base")).run
        ((ofModules modules).resolveBases.run []).2).1.toOption =
          some ((), some (.classObject b false)) := by decide +kernel
  obtain ⟨w, s, hwalk, -, hb⟩ := exists_comesTo (c := c) (k := k) (d := d) rfl hsteps hfound
  rw [← hname] at hb
  have hbase : b ∈ c.basesOf k :=
    h modules c _ s [] k b w decl n false (run_eq_of_fst hc) hwalk hdecl hn hb (by decide)
  exact List.not_mem_nil hbase

end Concordance.Binding
