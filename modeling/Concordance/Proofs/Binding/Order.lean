import Concordance.Proofs.Binding.Hints
import Concordance.Proofs.Binding.History
import Concordance.Proofs.Binding.Renaming
import Mathlib.Data.List.Induction

/-!
# Base classes in any order of modules

Base classes are found one after the other, module by module, and what is found for one class counts
for those that come later. So a base class that is reached through another class's bases, or through
names that lead back to themselves, may depend on which module comes first. All others do not: the
base expressions of a class that have a known answer when their turn comes, in both of two orders
of the modules, denote the same classes in both.

An answer that is known in all versions of a codebase up to some point is known in the first one,
in which no base classes have been found. That codebase is the same in any order of the modules,
under other indices, and this is what carries an answer from one order to the other.

## Main definitions

* `Query.Settles`: the answer to what is asked is known in versions of a codebase
* `Codebase.baseTurns`, `Codebase.BasesSettle`: base expressions in the order in which they are
  looked at, and those of a class when their turn comes
* `Codebase.address?`: a class by the name of its module and its place there

## Main results

* `Environment.basesOf_run`: what finding base classes finds for a class
* `Codebase.bases_eq_of_settle`: base classes in any order of modules
* `Codebase.bases_depend_on_order`: a class within a base class
-/

namespace Concordance.Binding

open Codebase

/-! ### Known answers to what is asked -/

/-- The answer that versions of a codebase agree on to what is asked, down to a depth. -/
def Query.agreedAnswer (versions : List Codebase) (depth : Nat) (x : Query) :
    Except Fault (Option Denotation) :=
  agreed versions fun c => ((x.askWith c (unfolded versions depth).questions).run []).1

/-- The answer to what is asked is known in some versions of a codebase: `r`. -/
def Query.Settles (versions : List Codebase) (x : Query) (r : Except Fault (Option Denotation)) :
    Prop :=
  r ≠ .error .tooDeep ∧ ∃ depth, x.agreedAnswer versions depth = r

namespace Query

variable {vs : List Codebase} {c : Codebase} {x : Query} {r : Except Fault (Option Denotation)}

/-- A known answer is the one that is given, whatever is kept as long as it is right. -/
theorem Settles.run_ask (h : x.Settles vs r) (houtlined : c.Outlined) (hc : c ∈ vs) {s : Cache}
    (hs : Right vs s) : ((x.ask c).run s).1 = r := by
  obtain ⟨hr, depth, hdepth⟩ := h
  have hanswer : ((x.askWith c (unfolded vs depth).questions).run []).1 = r :=
    (eq_agreed (by rw [show agreed _ _ = r from hdepth]; exact hr) hc).trans hdepth
  have hfollows : Follows (Right vs) True (x.askWith c c.ask)
      (x.askWith c (unfolded vs depth).questions) :=
    (congruence_follows _ True).askWith
      (fun Q hQ => (keeps_and_follows hc c.depth hQ leads_nothing).2 depth) x
  have hunlimited : Unlimited (x.askWith c c.ask) :=
    congruence_unlimited.askWith (p := c.ask) (fun Q hQ => unlimited_ask houtlined hQ) x
  obtain ⟨-, heq⟩ := hfollows s [] hs (by rw [hanswer]; exact hr)
  rw [hanswer] at heq
  rw [ask_eq]
  exact heq.resolve_right fun h => hunlimited s h.2

/-- What is known in some versions is known in each of them. -/
theorem unfolded_of_mem (hc : c ∈ vs) {depth : Nat} {Q : Question} (h : Known vs depth Q) :
    unfolded [c] depth Q = unfolded vs depth Q := by
  induction depth generalizing Q with
  | zero => exact absurd h not_known_zero
  | succ depth ih =>
    have hanswer := answer_of_known h hc
    have hfollows : Follows (fun _ => True) False (c.answer (unfolded [c] depth).questions Q)
        (c.answer (unfolded vs depth).questions Q) := by
      refine (congruence_follows _ False).answer (fun Q' _ s t hs ht => ?_) Q
      rw [Answers.run_reply] at ht
      rw [Answers.run_reply, Answers.run_reply, ih ht]
      exact ⟨hs, .inl rfl⟩
    obtain ⟨-, heq⟩ := hfollows [] [] trivial (by rw [hanswer]; exact h)
    rw [unfolded_singleton, ← hanswer]
    exact heq.resolve_right fun hcut => hcut.1

theorem agreedAnswer_singleton (c : Codebase) (depth : Nat) (x : Query) :
    x.agreedAnswer [c] depth = ((x.askWith c (unfolded [c] depth).questions).run []).1 := by
  simp [agreedAnswer, agreed]

/-- Replies that are the known ones where those are known lead to the known answer. -/
theorem run_askWith_eq {a b : Answers} (hab : ∀ Q, b Q ≠ .error .tooDeep → a Q = b Q)
    (h : ((x.askWith c b.questions).run []).1 ≠ .error .tooDeep) :
    ((x.askWith c a.questions).run []).1 = ((x.askWith c b.questions).run []).1 := by
  have hfollows : Follows (fun _ => True) False (x.askWith c a.questions)
      (x.askWith c b.questions) := by
    refine (congruence_follows _ False).askWith (fun Q _ s t hs ht => ?_) x
    rw [Answers.run_reply] at ht
    rw [Answers.run_reply, Answers.run_reply, hab Q ht]
    exact ⟨hs, .inl rfl⟩
  exact (hfollows [] [] trivial h).2.resolve_right fun hcut => hcut.1

theorem Settles.of_mem (h : x.Settles vs r) (hc : c ∈ vs) : x.Settles [c] r := by
  obtain ⟨hr, depth, hdepth⟩ := h
  have hanswer : ((x.askWith c (unfolded vs depth).questions).run []).1 = r :=
    (eq_agreed (by rw [show agreed _ _ = r from hdepth]; exact hr) hc).trans hdepth
  refine ⟨hr, depth, ?_⟩
  rw [agreedAnswer_singleton, ← hanswer]
  exact run_askWith_eq (fun Q hQ => unfolded_of_mem hc hQ) (by rw [hanswer]; exact hr)

/-- What is asked has one known answer. -/
theorem Settles.unique {r' : Except Fault (Option Denotation)} (h : x.Settles [c] r)
    (h' : x.Settles [c] r') : r = r' := by
  obtain ⟨hr, depth, hdepth⟩ := h
  obtain ⟨hr', depth', hdepth'⟩ := h'
  rw [agreedAnswer_singleton] at hdepth hdepth'
  have hle {d d' : Nat} (hle : d ≤ d')
      (hknown : ((x.askWith c (unfolded [c] d).questions).run []).1 ≠ .error .tooDeep) :
      ((x.askWith c (unfolded [c] d').questions).run []).1 =
        ((x.askWith c (unfolded [c] d).questions).run []).1 :=
    run_askWith_eq (fun Q hQ => unfolded_of_le hQ hle) hknown
  rcases Nat.le_total depth depth' with h | h
  · rw [← hdepth, ← hdepth', hle h (by rw [hdepth]; exact hr)]
  · rw [← hdepth, ← hdepth', hle h (by rw [hdepth']; exact hr')]

end Query

/-! ### Base expressions -/

/-- The expression that tells a base class: a generic type without its arguments. -/
def bareBase : Syntax.Node → Syntax.Node
  | .subscript _ type _ _ => type
  | n => n

/-- What is asked for a base expression of a class. -/
def baseQuery (k : ClassId) (n : Syntax.Node) : Query :=
  .expression (fun id => .inl (k.moduleIndex, id)) none (bareBase n)

/-- The base class that a class is given for a base expression: none if that denotes no class, or
the class itself. -/
def baseOf (k : ClassId) : Except Fault (Option Denotation) → List ClassId
  | .ok (some (.classObject b _)) => if b = k then [] else [b]
  | _ => []

/-- Add base classes to a class. -/
def Codebase.addBases (c : Codebase) (k : ClassId) (found : List ClassId) : Codebase :=
  found.foldl (fun c b => c.addBase k b) c

theorem basesOf_addBases (c : Codebase) (k : ClassId) (found : List ClassId) (k' : ClassId) :
    (c.addBases k found).basesOf k' = c.basesOf k' ++ if k = k' then found else [] := by
  have hbase (c : Codebase) (b : ClassId) :
      (c.addBase k b).basesOf k' = c.basesOf k' ++ if k = k' then [b] else [] := by
    rw [basesOf, addBase, Table.find?_alter, basesOf]
    by_cases h : k = k'
    · rw [if_pos h, if_pos h, h]
      rfl
    · rw [if_neg h, if_neg h, List.append_nil]
  induction found generalizing c with
  | nil => simp [addBases]
  | cons b found ih =>
    rw [addBases, List.foldl_cons, ← addBases, ih, hbase, List.append_assoc]
    by_cases h : k = k' <;> simp [h]

/-- Looking for a base class is asking for it, and adding what is found. -/
theorem resolveBase_eq_bind (c : Codebase) (k : ClassId) (n : Syntax.Node) :
    c.resolveBase k n = (baseQuery k n).ask c >>= fun found =>
      match found with
      | some (.classObject b _) => pure (if b = k then c else c.addBase k b)
      | _ => pure c := by
  cases n <;> rfl

/-- A run of it is a run of the asking. -/
theorem run_resolveBase (c : Codebase) (k : ClassId) (n : Syntax.Node) (s : Cache) :
    (c.resolveBase k n).run s =
      match ((baseQuery k n).ask c).run s with
      | (.ok found, s') => (.ok (c.addBases k (baseOf k (.ok found))), s')
      | (.error e, s') => (.error e, s') := by
  rw [resolveBase_eq_bind, run_bind]
  rcases ((baseQuery k n).ask c).run s with ⟨e | found, s'⟩
  · rfl
  · rcases found with _ | b
    · rfl
    · cases b with
      | classObject b aliased =>
        by_cases hb : b = k
        · simp only [baseOf, if_pos hb]
          rfl
        · simp only [baseOf, if_neg hb]
          rfl
      | _ => rfl

/-- The base expressions of all classes, in the order in which they are looked at. -/
def Codebase.baseTurns (c : Codebase) : List (ClassId × Syntax.Node) :=
  c.classIds.flatMap fun k =>
    (((c.classDecl? k).map fun d => d.baseExprs).getD []).map fun n => (k, n)

/-- The base expressions of a class, in the order in which they are looked at. -/
def Codebase.exprsOf (turns : List (ClassId × Syntax.Node)) (k : ClassId) : List Syntax.Node :=
  (turns.filter fun t => t.1 = k).map fun t => t.2

theorem mem_exprsOf {turns : List (ClassId × Syntax.Node)} {k : ClassId} {n : Syntax.Node} :
    n ∈ exprsOf turns k ↔ (k, n) ∈ turns := by
  simp [exprsOf]

/-- The event that a base expression has its turn. -/
def turn (t : ClassId × Syntax.Node) : Event := .base t.1 t.2

namespace Environment

/-- What is found when a base expression has its turn. -/
theorem basesOf_step (e : Environment) (t : ClassId × Syntax.Node) (k : ClassId) :
    (e.step (turn t)).codebase.basesOf k = e.codebase.basesOf k ++
      if t.1 = k then baseOf t.1 (((baseQuery t.1 t.2).ask e.codebase).run e.kept).1 else [] := by
  rw [turn, step, run_resolveBase]
  rcases ((baseQuery t.1 t.2).ask e.codebase).run e.kept with ⟨f | found, s'⟩
  · simp [baseOf]
  · exact basesOf_addBases _ _ _ _

/-- What finding base classes finds for a class: what its base expressions are answered with when
they have their turns. -/
theorem basesOf_run {e : Environment} (turns : List (ClassId × Syntax.Node)) {k : ClassId}
    {r : Syntax.Node → Except Fault (Option Denotation)}
    (h : ∀ before n after, turns = before ++ (k, n) :: after →
      (((baseQuery k n).ask (e.run (before.map turn)).codebase).run
        (e.run (before.map turn)).kept).1 = r n) :
    (e.run (turns.map turn)).codebase.basesOf k =
      e.codebase.basesOf k ++ (exprsOf turns k).flatMap fun n => baseOf k (r n) := by
  induction turns using List.reverseRecOn with
  | nil => simp [run, exprsOf]
  | append_singleton turns t ih =>
    have hstep : e.run ((turns ++ [t]).map turn) = (e.run (turns.map turn)).step (turn t) := by
      rw [List.map_append, run_append]
      rfl
    have hexprs : exprsOf (turns ++ [t]) k =
        exprsOf turns k ++ if t.1 = k then [t.2] else [] := by
      by_cases hk : t.1 = k <;> simp [exprsOf, hk]
    rw [hstep, basesOf_step, hexprs, List.flatMap_append, ← List.append_assoc,
      ih fun before n after heq => h before n (after ++ [t]) (by rw [heq]; simp)]
    congr 1
    obtain ⟨k', n⟩ := t
    by_cases hk : k' = k
    · subst hk
      simp [h turns n [] rfl]
    · simp [hk]

/-- Work through a list is a run if each step of it is, as long as it keeps what the steps need. -/
theorem run_foldlM {α : Type} {P : Codebase → Prop} {f : Codebase → α → Resolve Codebase}
    (events : α → List Event) (hf : ∀ c a s c' s', P c → (f c a).run s = (.ok c', s') →
      run ⟨c, s⟩ (events a) = ⟨c', s'⟩ ∧ P c') (l : List α) {c c' : Codebase} {s s' : Cache}
    (hc : P c) (h : (l.foldlM f c).run s = (.ok c', s')) :
    run ⟨c, s⟩ (l.flatMap events) = ⟨c', s'⟩ ∧ P c' := by
  induction l generalizing c s with
  | nil =>
    cases h
    exact ⟨rfl, hc⟩
  | cons a rest ih =>
    rw [List.foldlM_cons, run_bind] at h
    cases hstep : (f c a).run s with
    | mk r s₁ =>
      rw [hstep] at h
      cases r with
      | error e => cases h
      | ok c₁ =>
        obtain ⟨hrun, hc₁⟩ := hf c a s c₁ s₁ hc hstep
        rw [List.flatMap_cons, run_append, hrun]
        exact ih hc₁ h

/-- Finding the base classes of all classes is a run through the base expressions. -/
theorem run_resolveBases {c c' : Codebase} {s s' : Cache}
    (h : c.resolveBases.run s = (.ok c', s')) :
    run ⟨c, s⟩ (c.baseTurns.map turn) = ⟨c', s'⟩ := by
  have hexpr (k : ClassId) (c₁ : Codebase) (n : Syntax.Node) (s : Cache) (c' : Codebase)
      (s' : Cache) (hc₁ : c₁.modules = c.modules) (h : (c₁.resolveBase k n).run s = (.ok c', s')) :
      run ⟨c₁, s⟩ [turn (k, n)] = ⟨c', s'⟩ ∧ c'.modules = c.modules := by
    have hstep : run ⟨c₁, s⟩ [turn (k, n)] = ⟨c', s'⟩ := by
      show step ⟨c₁, s⟩ (.base k n) = _
      simp only [step, h]
    obtain ⟨bases, hbases⟩ := exists_bases_run ⟨c₁, s⟩ [turn (k, n)]
    rw [hstep] at hbases
    exact ⟨hstep, (congrArg Codebase.modules hbases).trans hc₁⟩
  have hrun := run_foldlM (P := fun c₁ => c₁.modules = c.modules)
    (fun k => ((((c.classDecl? k).map fun d => d.baseExprs).getD []).map fun n =>
      (k, n)).map turn) (fun c₁ k s c' s' hc₁ h => ?_) c.classIds rfl h
  · rw [baseTurns, List.map_flatMap]
    exact hrun.1
  · have hdecl : c₁.classDecl? k = c.classDecl? k := by rw [classDecl?, classDecl?, hc₁]
    rw [hdecl] at h
    cases hd : c.classDecl? k with
    | none =>
      rw [hd] at h
      cases h
      exact ⟨rfl, hc₁⟩
    | some d =>
      rw [hd] at h
      have hexprs := run_foldlM (fun n => [turn (k, n)]) (hexpr k) d.baseExprs hc₁ h
      rw [← List.map_eq_flatMap] at hexprs
      rw [List.map_map]
      exact hexprs

end Environment

/-! ### Two orders -/

namespace Codebase

/-- The base expressions of a class have known answers when they have their turns: in all versions
of the codebase that there are up to then. -/
def BasesSettle (modules : List ModuleDecls) (k : ClassId) : Prop :=
  ∀ before n after, (ofModules modules).baseTurns = before ++ (k, n) :: after →
    ∃ r, (baseQuery k n).Settles
      (Environment.versions ⟨ofModules modules, []⟩ (before.map turn)) r

/-- The name of the module of a class, and the place of its statement. -/
def address? (c : Codebase) (k : ClassId) : Option (String × Position) :=
  (c.modules[k.moduleIndex]?).map fun d => (d.source.name, k.position)

variable {modules modules' : List ModuleDecls} {c c' : Codebase} {σ : Nat → Nat}

/-- The base classes of a class are what the answers to its base expressions tell in the codebase in
which none have been found. -/
theorem basesOf_of_settle {k : ClassId} {r : Syntax.Node → Except Fault (Option Denotation)}
    (h : ((ofModules modules).resolveBases.run []).1 = .ok c) (hk : BasesSettle modules k)
    (hr : ∀ n r', (baseQuery k n).Settles [ofModules modules] r' → r' = r n) :
    c.basesOf k = (exprsOf (ofModules modules).baseTurns k).flatMap fun n => baseOf k (r n) := by
  obtain ⟨s, hs⟩ : ∃ s, (ofModules modules).resolveBases.run [] = (.ok c, s) :=
    ⟨_, Prod.ext h rfl⟩
  have hrun := Environment.basesOf_run (e := ⟨ofModules modules, []⟩) (k := k) (r := r)
    (ofModules modules).baseTurns fun before n after heq => ?_
  · rw [Environment.run_resolveBases hs] at hrun
    exact hrun
  · obtain ⟨r', hsettles⟩ := hk before n after heq
    have hfirst := Environment.codebase_mem_versions ⟨ofModules modules, []⟩ (before.map turn)
    obtain ⟨hright, hlast⟩ := Environment.right_run (e := ⟨ofModules modules, []⟩)
      (fun c hc => hc) (right_nil (Environment.versions ⟨ofModules modules, []⟩ (before.map turn)))
    obtain ⟨bases, hbases⟩ :=
      Environment.exists_bases_run ⟨ofModules modules, []⟩ (before.map turn)
    rw [← hr n r' (hsettles.of_mem hfirst)]
    refine hsettles.run_ask ?_ hlast hright
    rw [hbases]
    exact outlined_ofModules modules bases

/-- A known answer to a base expression is known under other indices. -/
theorem Renamed.settles (h : Renamed σ c c') {k : ClassId} {n : Syntax.Node}
    {r : Except Fault (Option Denotation)} (hr : (baseQuery k n).Settles [c] r) :
    (baseQuery (k.rename σ) n).Settles [c'] (Except.map (renameFound σ) r) := by
  obtain ⟨hdeep, depth, rfl⟩ := hr
  have hcarried : Carried (renameFound σ)
      ((baseQuery k n).askWith c (Codebase.unfolded [c] depth).questions)
      ((baseQuery (k.rename σ) n).askWith c' (Codebase.unfolded [c'] depth).questions) := by
    have hq : ∀ Q, Carried (renameFound σ) ((Codebase.unfolded [c] depth).questions.reply Q)
        ((Codebase.unfolded [c'] depth).questions.reply (Q.rename σ)) := by
      intro Q s t
      rw [Answers.run_reply, Answers.run_reply, h.unfolded]
    exact h.resolve hq (fun id => hq (.ofName k.moduleIndex id)) none (.ofNode (bareBase n))
  rw [Query.agreedAnswer_singleton] at hdeep ⊢
  refine ⟨?_, depth, ?_⟩
  · generalize (((baseQuery k n).askWith c
      (Codebase.unfolded [c] depth).questions).run []).1 = r at hdeep
    cases r with
    | error e => exact hdeep
    | ok found => exact nofun
  · rw [Query.agreedAnswer_singleton]
    exact hcarried [] []

theorem baseOf_rename (hσ : Function.Injective σ) (k : ClassId)
    (r : Except Fault (Option Denotation)) :
    baseOf (k.rename σ) (Except.map (renameFound σ) r) = (baseOf k r).map (ClassId.rename σ) := by
  rcases r with e | _ | b
  · rfl
  · rfl
  · cases b with
    | classObject b aliased =>
      show (if b.rename σ = k.rename σ then [] else [b.rename σ]) = _
      by_cases hb : b = k
      · simp [baseOf, hb]
      · have hne : b.rename σ ≠ k.rename σ := fun h => hb (ClassId.rename_injective hσ h)
        simp [baseOf, hb, hne]
    | _ => rfl

/-- What comes of the elements of lists that depend on an index, where it is nothing at all
others. -/
theorem flatMap_flatten_mapIdx {α β γ : Type} {g : Nat → α → List β} {f : β → List γ} {m : Nat}
    (h : ∀ i, i ≠ m → ∀ a, (g i a).flatMap f = []) (l : List α) :
    (l.mapIdx g).flatten.flatMap f = ((l[m]?).map fun a => (g m a).flatMap f).getD [] := by
  induction l generalizing m g with
  | nil => simp
  | cons a l ih =>
    have hrest (m' : Nat) (hm' : ∀ i, i ≠ m' → ∀ a, (g (i + 1) a).flatMap f = []) :=
      ih (g := fun i => g (i + 1)) (m := m') hm'
    rw [List.mapIdx_cons, List.flatten_cons, List.flatMap_append]
    cases m with
    | zero =>
      -- Nothing comes of the rest, as if the index were beyond it.
      rw [hrest l.length fun i _ a => h (i + 1) (by omega) a, List.getElem?_length]
      simp
    | succ m =>
      rw [h 0 (by omega) a, hrest m fun i hi a => h (i + 1) (by omega) a]
      rfl

/-- What comes of the classes of a module. -/
theorem flatMap_classIds {β : Type} {f : ClassId → List β} {m : Nat}
    (h : ∀ k, k.moduleIndex ≠ m → f k = []) (modules : List ModuleDecls) :
    (ofModules modules).classIds.flatMap f =
      ((modules[m]?).map fun d => d.classes.flatMap fun x => f ⟨m, x.position⟩).getD [] := by
  rw [classIds, flatMap_flatten_mapIdx (m := m)]
  · simp only [List.flatMap_map]
    rfl
  · intro i hi d
    rw [List.flatMap_map]
    exact List.flatMap_eq_nil_iff.mpr fun x _ => h _ hi

/-- The base expressions of a class are those of its module's statements at its place. -/
theorem exprsOf_baseTurns (modules : List ModuleDecls) (k : ClassId) :
    exprsOf (ofModules modules).baseTurns k =
      ((modules[k.moduleIndex]?).map fun d => d.classes.flatMap fun x =>
        if x.position = k.position then
          ((d.classAt? k.position).map fun d => d.baseExprs).getD []
        else []).getD [] := by
  have hturn (k' : ClassId) (exprs : List Syntax.Node) :
      exprsOf (exprs.map fun n => (k', n)) k = if k' = k then exprs else [] := by
    by_cases hk : k' = k <;> simp [exprsOf, List.filter_map, Function.comp_def, hk]
  have hflat {α : Type} (l : List α) (f : α → List (ClassId × Syntax.Node)) :
      exprsOf (l.flatMap f) k = l.flatMap fun a => exprsOf (f a) k := by
    simp only [exprsOf, List.filter_flatMap, List.map_flatMap]
  rw [baseTurns, hflat]
  simp only [hturn]
  rw [flatMap_classIds (m := k.moduleIndex)
    fun k' hk' => if_neg fun h => hk' (congrArg ClassId.moduleIndex h)]
  cases hd : modules[k.moduleIndex]? with
  | none => rfl
  | some d =>
    refine List.flatMap_congr fun x _ => ?_
    by_cases hx : x.position = k.position
    · have hk : (⟨k.moduleIndex, x.position⟩ : ClassId) = k := by rw [hx]
      have hdecl : (ofModules modules).classDecl? k = d.classAt? k.position := by
        rw [classDecl?]
        exact congrArg (Option.bind · _) hd
      rw [if_pos hk, if_pos hx, hk, hdecl]
    · rw [if_neg fun h => hx (congrArg ClassId.position h), if_neg hx]

/-- The base classes of a class are the same under other indices if its base expressions have known
answers when they have their turns. -/
theorem Renamed.basesOf_of_settle (h : Renamed σ (ofModules modules) (ofModules modules'))
    (hc : ((ofModules modules).resolveBases.run []).1 = .ok c)
    (hc' : ((ofModules modules').resolveBases.run []).1 = .ok c') {k : ClassId}
    (hk : BasesSettle modules k) (hk' : BasesSettle modules' (k.rename σ)) :
    c'.basesOf (k.rename σ) = (c.basesOf k).map (ClassId.rename σ) := by
  have hanswer (modules : List ModuleDecls) (k : ClassId) (n : Syntax.Node) :
      ∃ r, ∀ r', (baseQuery k n).Settles [ofModules modules] r' → r' = r := by
    by_cases hn : ∃ r, (baseQuery k n).Settles [ofModules modules] r
    · exact ⟨hn.choose, fun r' hr' => hr'.unique hn.choose_spec⟩
    · exact ⟨.ok none, fun r' hr' => absurd ⟨r', hr'⟩ hn⟩
  choose r hr using hanswer modules k
  choose r' hr' using hanswer modules' (k.rename σ)
  have hexprs : exprsOf (ofModules modules').baseTurns (k.rename σ) =
      exprsOf (ofModules modules).baseTurns k := by
    rw [exprsOf_baseTurns, exprsOf_baseTurns]
    exact congrArg (fun d => Option.getD (Option.map _ d) _) (h.modules k.moduleIndex)
  rw [Codebase.basesOf_of_settle hc hk hr, Codebase.basesOf_of_settle hc' hk' hr', hexprs,
    List.map_flatMap]
  refine List.flatMap_congr fun n hn => ?_
  obtain ⟨before, after, heq⟩ := List.append_of_mem (mem_exprsOf.mp hn)
  obtain ⟨r₀, hsettles⟩ := hk before n after heq
  have hfirst := hsettles.of_mem (Environment.codebase_mem_versions _ _)
  rw [← hr' n _ (h.settles hfirst), ← hr n _ hfirst, baseOf_rename h.injective]

/-- Finding base classes changes nothing but those. -/
theorem exists_bases_of_resolveBases
    (h : ((ofModules modules).resolveBases.run []).1 = .ok c) :
    ∃ bases, c = { ofModules modules with bases } := by
  obtain ⟨s, hs⟩ : ∃ s, (ofModules modules).resolveBases.run [] = (.ok c, s) :=
    ⟨_, Prod.ext h rfl⟩
  obtain ⟨bases, hbases⟩ := Environment.exists_bases_run ⟨ofModules modules, []⟩
    ((ofModules modules).baseTurns.map turn)
  rw [Environment.run_resolveBases hs] at hbases
  exact ⟨bases, hbases⟩

/-- The bases that are found tell the codebase that there is then. -/
theorem resolveBases_eq {bases : Table ClassId (List ClassId)}
    (h : ((ofModules modules).resolveBases.run []).1.map Codebase.bases = .ok bases) :
    ((ofModules modules).resolveBases.run []).1 = .ok { ofModules modules with bases } := by
  cases hc : ((ofModules modules).resolveBases.run []).1 with
  | error e =>
    rw [hc] at h
    cases h
  | ok c =>
    obtain ⟨bases', rfl⟩ := exists_bases_of_resolveBases hc
    rw [hc] at h
    cases h
    rfl

/-- **Base classes do not depend on the order of modules where they settle.** For all modules with
different names and a permutation of them, the base classes of every class are found in both orders
if all type hints can be read, and whenever they are found in both, a class has the same ones in both
if its base expressions have known answers when their turns come. -/
theorem bases_eq_of_settle (hperm : modules.Perm modules')
    (hnames : (modules.map fun d => d.source.name).Nodup) :
    ((∀ d ∈ modules, ModuleReadable d) →
      ∃ c c', ((ofModules modules).resolveBases.run []).1 = .ok c ∧
        ((ofModules modules').resolveBases.run []).1 = .ok c') ∧
    ∀ c c', ((ofModules modules).resolveBases.run []).1 = .ok c →
      ((ofModules modules').resolveBases.run []).1 = .ok c' →
      ∀ k k' a, c.address? k = some a → c'.address? k' = some a →
        BasesSettle modules k → BasesSettle modules' k' →
        (c.basesOf k).map c.address? = (c'.basesOf k').map c'.address? := by
  constructor
  · intro hreadable
    obtain ⟨c, hc, -⟩ := gives_resolveBases hreadable []
    obtain ⟨c', hc', -⟩ := gives_resolveBases
      (fun d hd => hreadable d (hperm.mem_iff.mpr hd)) []
    exact ⟨c, c', hc, hc'⟩
  · intro c c' hc hc' k k' a hk hk' hsettle hsettle'
    obtain ⟨σ, hσ⟩ := exists_renamed hperm hnames
    have hnames' : (modules'.map fun d => d.source.name).Nodup :=
      (hperm.map _).nodup_iff.mp hnames
    have haddress (k : ClassId) : c'.address? (k.rename σ) = c.address? k := by
      obtain ⟨bases, rfl⟩ := exists_bases_of_resolveBases hc
      obtain ⟨bases', rfl⟩ := exists_bases_of_resolveBases hc'
      exact congrArg (Option.map _) (hσ.modules k.moduleIndex)
    obtain rfl : k' = k.rename σ := by
      obtain ⟨bases', rfl⟩ := exists_bases_of_resolveBases hc'
      rw [← haddress] at hk
      rw [address?, Option.map_eq_some_iff] at hk hk'
      obtain ⟨d, hd, rfl⟩ := hk
      obtain ⟨d', hd', heq⟩ := hk'
      obtain ⟨hname, hposition⟩ := Prod.mk.inj heq
      exact congrArg₂ ClassId.mk (index_eq_of_name hnames' hd' hd hname) hposition
    rw [hσ.basesOf_of_settle hc hc' hsettle hsettle', List.map_map]
    exact List.map_congr_left fun b _ => (haddress b).symm

/-- A module that takes a class from another one, and a class from within that class as the base of
one of its own. -/
def borrower : ModuleDecls :=
  extractModule
    { name := "a", project := "p"
      body := [.importFrom ⟨0, 0, 0⟩ (some "b") [⟨"B", none⟩] 0,
        .classDef ⟨1, 0, 1⟩ "A" [.member ⟨1, 8, 1⟩ (.name ⟨1, 8, 1⟩ "B" .load) "N" .load] []
          [.plain ⟨1, 14, 1⟩ .passing []] []] }

/-- A module with such a class, which has the class within. -/
def lender : ModuleDecls :=
  extractModule
    { name := "b", project := "p"
      body := [.classDef ⟨0, 0, 0⟩ "B" [] []
        [.classDef ⟨1, 4, 1⟩ "N" [] [] [.plain ⟨1, 13, 1⟩ .passing []] []] []] }

/-- A module with such a class, which inherits the class within. -/
def heir : ModuleDecls :=
  extractModule
    { name := "b", project := "p"
      body := [.classDef ⟨0, 0, 0⟩ "Base" [] []
          [.classDef ⟨1, 4, 1⟩ "N" [] [] [.plain ⟨1, 13, 1⟩ .passing []] []] [],
        .classDef ⟨2, 0, 2⟩ "B" [.name ⟨2, 8, 2⟩ "Base" .load] []
          [.plain ⟨2, 15, 2⟩ .passing []] []] }

/-- A class that the base class has itself is the base class whichever module comes first. -/
theorem bases_eq_of_settle_borrower :
    let c : Codebase :=
      { ofModules [borrower, lender] with bases := [(⟨0, ⟨1, 0⟩⟩, [⟨1, ⟨1, 4⟩⟩])] }
    let c' : Codebase :=
      { ofModules [lender, borrower] with bases := [(⟨1, ⟨1, 0⟩⟩, [⟨0, ⟨1, 4⟩⟩])] }
    ((ofModules [borrower, lender]).resolveBases.run []).1 = .ok c ∧
      ((ofModules [lender, borrower]).resolveBases.run []).1 = .ok c' ∧
      (c.basesOf ⟨0, ⟨1, 0⟩⟩).map c.address? = (c'.basesOf ⟨1, ⟨1, 0⟩⟩).map c'.address? ∧
      (c.basesOf ⟨0, ⟨1, 0⟩⟩).map c.address? = [some ("b", ⟨1, 4⟩)] := by
  intro c c'
  have hc : ((ofModules [borrower, lender]).resolveBases.run []).1 = .ok c :=
    resolveBases_eq (by decide +kernel)
  have hc' : ((ofModules [lender, borrower]).resolveBases.run []).1 = .ok c' :=
    resolveBases_eq (by decide +kernel)
  have hsettle (modules : List ModuleDecls) (k : ClassId) (n : Syntax.Node)
      (r : Except Fault (Option Denotation))
      (hturns : (ofModules modules).baseTurns = [(k, n)])
      (hr : (baseQuery k n).Settles [ofModules modules] r) : BasesSettle modules k := by
    intro before n' after heq
    rw [hturns] at heq
    cases before with
    | nil =>
      cases heq
      exact ⟨r, hr⟩
    | cons t before => simp at heq
  refine ⟨hc, hc', (bases_eq_of_settle (.swap _ _ _) (by decide +kernel)).2 c c' hc hc'
    ⟨0, ⟨1, 0⟩⟩ ⟨1, ⟨1, 0⟩⟩ ("a", ⟨1, 0⟩) rfl rfl
    (hsettle _ _ _ (.ok (some (.classObject ⟨1, ⟨1, 4⟩⟩ false))) rfl ⟨nofun, 4, ?_⟩)
    (hsettle _ _ _ (.ok (some (.classObject ⟨0, ⟨1, 4⟩⟩ false))) rfl ⟨nofun, 4, ?_⟩),
    by decide +kernel⟩
  · decide +kernel
  · decide +kernel

/-- Base classes do depend on the order of modules where one is reached through the bases of another
class: a class that is inherited is found as a base class only if the module of the heir comes
first. -/
theorem bases_depend_on_order :
    ¬ ∀ modules modules' : List ModuleDecls, modules.Perm modules' →
      (modules.map fun d => d.source.name).Nodup →
      ∀ c c', ((ofModules modules).resolveBases.run []).1 = .ok c →
        ((ofModules modules').resolveBases.run []).1 = .ok c' →
        ∀ k k' a, c.address? k = some a → c'.address? k' = some a →
          (c.basesOf k).map c.address? = (c'.basesOf k').map c'.address? := by
  intro h
  have hsame := h [borrower, heir] [heir, borrower] (.swap _ _ _) (by decide +kernel)
    { ofModules [borrower, heir] with bases := [(⟨1, ⟨2, 0⟩⟩, [⟨1, ⟨0, 0⟩⟩])] }
    { ofModules [heir, borrower] with
      bases := [(⟨0, ⟨2, 0⟩⟩, [⟨0, ⟨0, 0⟩⟩]), (⟨1, ⟨1, 0⟩⟩, [⟨0, ⟨1, 4⟩⟩])] }
    (resolveBases_eq (by decide +kernel)) (resolveBases_eq (by decide +kernel))
    ⟨0, ⟨1, 0⟩⟩ ⟨1, ⟨1, 0⟩⟩ ("a", ⟨1, 0⟩) rfl rfl
  revert hsame
  decide +kernel

end Codebase

end Concordance.Binding
