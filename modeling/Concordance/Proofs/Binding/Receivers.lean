import Concordance.Proofs.Binding.Origins
import Concordance.Proofs.Binding.Shadowing
import Concordance.Proofs.Declaration.Sites

/-!
# Receivers of declared fields

The stores that declare fields of a class are found in its methods by the name of the receiver,
whatever stands around them. The walk through the module looks that name up in the scopes. It finds
the class, or an instance of it, where the name comes from the parameters of the method, and then
both mean the same. Where the name has been bound in between, by a parameter of a function within or
by an assignment, the store declares a field of the class all the same.

## Main definitions

* `SourceModule.ComesToMethod`: the walk opens a method in the body of a class
* `Denotation.IsReceiver`: a class as a receiver, or an instance of it

## Main results

* `find?_bindParameters`: what a method binds its receiver to
* `SourceModule.resolves_of_originOf`: what its name denotes where it comes from the method
* `SourceModule.resolves_receiver_of_site`: where a site is a store to the class
* `SourceModule.not_always_resolves_receiver`: where it is not
-/

namespace Concordance

open Syntax Binding

/-! ### Parameters of methods -/

namespace Binding

section

variable {c : Codebase} {q : Questions} {i : Nat} {r : String}

theorem find?_foldl_insert {names : List String} {t : Table String Denotation}
    (hr : r ∉ names) :
    (names.foldl (fun t name => t.insert name .other) t).find? r = t.find? r := by
  induction names generalizing t with
  | nil => rfl
  | cons name rest ih =>
    rw [List.mem_cons, not_or] at hr
    rw [List.foldl_cons, ih hr.2, Table.find?_insert, if_neg (Ne.symm hr.1)]

theorem find?_foldlM_insert {α : Type} {key : α → String} {f : α → Resolve (Option Denotation)}
    {g : Option Denotation → Denotation} {l : List α} {t : Table String Denotation}
    (hr : r ∉ l.map key) :
    Yields (l.foldlM (fun t a => do
        let b ← f a
        pure (t.insert (key a) (g b))) t) fun t' => t'.find? r = t.find? r := by
  induction l generalizing t with
  | nil => exact yields_pure rfl
  | cons a rest ih =>
    rw [List.map_cons, List.mem_cons, not_or] at hr
    rw [List.foldlM_cons, bind_assoc]
    refine yields_bind fun b => ?_
    rw [pure_bind]
    intro s t' s' h
    rw [ih hr.2 s t' s' h, Table.find?_insert, if_neg (Ne.symm hr.1)]

/-- What the receiver of a method in the body of a class is bound to. -/
def receiverBinding (k : ClassId) (f : Signature) : Denotation :=
  if f.receiver = .classItself then .classObject k true else .instanceOf k

/-- In the body of a declared class a method binds its receiver to that class or to an instance
of it. -/
theorem find?_bindParameters {w : Walk} {k : ClassId} {f : Signature} {hint : Hint}
    {rest : List (String × Hint)} (hbody : w.inClassBody = true) (hk : w.enclosing = some k)
    (hf : f.receiver ≠ .plain) (hparameters : f.parameters = (r, hint) :: rest)
    (hr : r ∉ rest.map Prod.fst ++ f.leftOver) :
    Yields (bindParameters c q i w f) fun t => t.find? r = some (receiverBinding k f) := by
  rw [List.mem_append, not_or] at hr
  have hstart : Table.find? r [(r, receiverBinding k f)] = some (receiverBinding k f) := by
    simp [Table.find?]
  rw [bindParameters, hbody, hk, hparameters, decide_eq_true hf]
  refine Yields.bind (find?_foldlM_insert hr.1) fun t ht => yields_pure ?_
  rw [find?_foldl_insert hr.2, ht]
  exact hstart

/-! ### Steps to a method -/

/-- Within the body of a declared class the walk knows the class. -/
theorem inClassBody_of_balanced {front inner : List Step} (hinner : Balanced inner)
    {name : String} {position : Position} {k : ClassId} (hk : declaredAt? c i position = some k)
    (w : Walk) :
    Yields ((front ++ .openClass name position :: inner).foldlM (perform c q i) w) fun v =>
      v.inClassBody = true ∧ v.enclosing = some k := by
  rw [List.foldlM_append]
  refine yields_bind fun u => ?_
  rw [List.foldlM_cons, perform, pure_bind]
  intro s v s' hv
  have hleaves := hinner.leaves _ s v s' hv
  constructor
  · obtain ⟨body, rest, hscopes, hkind, -⟩ := List.map_eq_cons_iff.mp hleaves.kinds
    rw [Walk.inClassBody, hscopes]
    exact decide_eq_true hkind
  · rw [Walk.enclosing, hleaves.classes, hk]
    rfl

end

/-- A method with a receiver opens a scope in which that is the first parameter. -/
theorem exists_signature {M : Node} {r : String} (hM : M.receiver? = some r) :
    ∃ name f hint rest, functionSteps M = .openFunction name f :: stepsAll (inside M) ∧
      f.receiver ≠ .plain ∧ f.parameters = (r, hint) :: rest ∧
      ownParameters M = r :: (rest.map Prod.fst ++ f.leftOver) ∧
      ∃ before, steps M = before ++ functionSteps M ++ [.closeScope] ∧ Balanced before := by
  cases M with
  | functionDef p async name parameters body decorators returns =>
    rw [Node.receiver?, receiverName?] at hM
    split at hM
    · cases hM
    rename_i hstatic
    obtain ⟨first, hfirst, hname⟩ := Option.bind_eq_some_iff.mp hM
    obtain ⟨others, hpositional⟩ := List.head?_eq_some_iff.mp hfirst
    have hreceiver : (signature name parameters decorators).receiver ≠ .plain := by
      rw [signature, receiver, hpositional]
      simp only [Bool.or_eq_true, not_or] at hstatic
      simp only [List.isEmpty_cons, Bool.false_or, if_neg hstatic.1]
      split <;> rintro ⟨⟩
    obtain ⟨more, hnamed⟩ : ∃ more, namedParameters parameters = first :: more := by
      cases parameters with
      | parameters positionalOnly positional rest keywordOnly keywordDefaults keywordRest
          defaults => exact ⟨others ++ keywordOnly, by rw [namedParameters, ← List.cons_append,
            ← hpositional, positionalParameters]⟩
      | _ => cases hpositional
    obtain ⟨hint, hparameter⟩ : ∃ hint, parameter? first = some (r, hint) := by
      cases first with
      | parameter p n hint =>
        obtain rfl := Option.some.inj hname
        cases hint with
        | none => exact ⟨_, rfl⟩
        | some h => exact ⟨_, rfl⟩
      | _ => cases hname
    have hparameters : (signature name parameters decorators).parameters =
        (r, hint) :: more.filterMap parameter? := by
      rw [signature, hnamed, List.filterMap_cons_some hparameter]
    refine ⟨name, signature name parameters decorators, hint, _, rfl, hreceiver, hparameters, ?_,
      stepsAll decorators ++ stepsOfDefaults parameters ++ stepsOfHints parameters ++
        stepsOption returns, by simp [functionSteps, steps], ?_⟩
    · rw [ownParameters, parameterNames, hnamed, List.filterMap_cons_some hname,
        map_fst_filterMap_parameter?]
      rfl
    · exact (((balanced_stepsAll decorators).append (balanced_stepsOfDefaults parameters)).append
        (balanced_stepsOfHints parameters)).append (balanced_stepsOption returns)
  | _ => cases hM

/-- The steps of a method begin with its opening. -/
theorem ne_nil_of_member {M : Node} {r : String} (hM : M.receiver? = some r)
    {early late : List Step} {position : Position} {line : Nat} {value : Designator}
    {attr : String} {use : Use} {updates : Bool}
    (h : functionSteps M = early ++ .member position line value attr use updates :: late) :
    early ≠ [] := by
  rintro rfl
  obtain ⟨_, _, _, _, hsteps, -⟩ := exists_signature hM
  cases (List.cons.inj (hsteps.symm.trans h)).1

/-- A class as a receiver, or an instance of it. -/
def Denotation.IsReceiver (k : ClassId) (b : Denotation) : Prop :=
  b = .instanceOf k ∨ b = .classObject k true

theorem isReceiver_receiverBinding (k : ClassId) (f : Signature) :
    (receiverBinding k f).IsReceiver k := by
  rw [receiverBinding]
  split
  · exact .inr rfl
  · exact .inl rfl

end Binding

/-! ### Declared classes -/

namespace SourceModule

variable {m : SourceModule} {container : Option String} {p : Place} {name : String}
  {bases keywords body decorators : List Node}

/-- The classes of a class statement are among those of its module. -/
theorem all_subset_of_declares {n : Node} (h : m.Declares container n) :
    ∀ x, extractClass m container n = some x → x.all ⊆ (extractModule m).classes := by
  induction h with
  | level hn =>
    exact fun x hx d hd =>
      List.mem_flatMap.mpr ⟨x, List.mem_filterMap.mpr ⟨_, hn, hx⟩, hd⟩
  | @nested container p name bases keywords body decorators n h hn ih =>
    intro x hx d hd
    refine ih _ rfl (List.mem_append_left _ (List.mem_flatMap.mpr ⟨x, ?_, hd⟩))
    exact mem_extractClasses.mpr ⟨n, hn, hx⟩

/-- A declared class is found where its statement stands. -/
theorem declaredAt?_of_declares {c : Codebase} {i : Nat}
    (hm : c.modules[i]? = some (extractModule m))
    (hC : m.Declares container (.classDef p name bases keywords body decorators)) :
    declaredAt? c i ⟨p.line, p.column⟩ = some ⟨i, ⟨p.line, p.column⟩⟩ := by
  have hmem := all_subset_of_declares hC _ rfl (List.mem_append_right _ (List.mem_singleton_self _))
  have hfound : ((extractModule m).classAt? ⟨p.line, p.column⟩).isSome :=
    List.find?_isSome.mpr ⟨_, hmem, decide_eq_true rfl⟩
  obtain ⟨d, hd⟩ := Option.isSome_iff_exists.mp hfound
  rw [declaredAt?, Codebase.classDecl?, hm, Option.bind_some, hd]
  rfl

/-- The walk through a module opens a method in the body of a class statement, after some steps. -/
def ComesToMethod (m : SourceModule) (name : String) (position : Position) (M : Node)
    (outside : List Step) : Prop :=
  (∃ back, stepsAll m.body = outside ++ functionSteps M ++ back) ∧
    ∃ front inner, outside = front ++ .openClass name position :: inner ∧ Balanced inner

/-- The steps of what stands where declared classes do are part of those of the module. -/
theorem exists_steps_of_declares {n : Node} (h : m.Declares container n) :
    ∃ front back, stepsAll m.body = front ++ steps n ++ back := by
  induction h with
  | level hn =>
    obtain ⟨front, back, hsteps, -⟩ := inScope_of_mem_moduleStatements m.body _ hn
    exact ⟨front, back, hsteps⟩
  | @nested container p name bases keywords body decorators n h hn ih =>
    obtain ⟨front, back, hsteps⟩ := ih
    obtain ⟨before, after, hbody, -⟩ := inScope_stepsAll hn
    refine ⟨front ++ (stepsAll decorators ++ stepsAll bases ++ stepsAll keywords ++
      [.openClass name ⟨p.line, p.column⟩] ++ before), after ++ [.closeClass] ++ back, ?_⟩
    rw [hsteps, steps, hbody]
    simp

/-- The walk comes to every method of a declared class. -/
theorem exists_comesToMethod
    (hC : m.Declares container (.classDef p name bases keywords body decorators)) {M : Node}
    {r : String} (hmem : M ∈ body) (hM : M.receiver? = some r) :
    ∃ outside, m.ComesToMethod name ⟨p.line, p.column⟩ M outside := by
  obtain ⟨front, back, hsteps⟩ := exists_steps_of_declares hC
  obtain ⟨before, after, hbody, hbefore⟩ := inScope_stepsAll hmem
  obtain ⟨_, _, _, _, -, -, -, -, start, hmethod, hstart⟩ := exists_signature hM
  refine ⟨front ++ (stepsAll decorators ++ stepsAll bases ++ stepsAll keywords) ++
    .openClass name ⟨p.line, p.column⟩ :: (before ++ start), ⟨.closeScope :: (after ++
      .closeClass :: back), ?_⟩, _, _, rfl, hbefore.append hstart⟩
  rw [hsteps, steps, hbody, hmethod]
  simp

/-- Where the name of a receiver comes from its method, it denotes the class that has the method or
an instance of it. -/
theorem resolves_of_originOf {c : Codebase} {i : Nat}
    (hm : c.modules[i]? = some (extractModule m))
    (hC : m.Declares container (.classDef p name bases keywords body decorators)) {M : Node}
    {r : String} (hM : M.receiver? = some r) (honce : (ownParameters M).Nodup)
    {outside early late : List Step}
    (hcomes : m.ComesToMethod name ⟨p.line, p.column⟩ M outside)
    (hsplit : functionSteps M = early ++ late) (hearly : early ≠ [])
    (horigin : originOf r (outside ++ early) = some ⟨outside.length, true⟩) (q : Questions) :
    Yields ((outside ++ early).foldlM (perform c q i) {}) fun w =>
      ∃ b, findInScopes r w.scopes = some b ∧ b.IsReceiver ⟨i, ⟨p.line, p.column⟩⟩ := by
  obtain ⟨-, front, inner, rfl, hinner⟩ := hcomes
  obtain ⟨method, f, hint, rest, hsteps, hf, hparameters, hown, -⟩ := exists_signature hM
  obtain ⟨o, early, rfl⟩ := List.exists_cons_of_ne_nil hearly
  obtain ⟨rfl, -⟩ := List.cons.inj (hsteps.symm.trans hsplit)
  rw [hown] at honce
  intro s w s' hw
  have hfound := findInScopes_of_originOf (n := r) hw
  rw [horigin] at hfound
  obtain ⟨b, hb, hmade⟩ := hfound
  refine ⟨b, hb, ?_⟩
  obtain ⟨hsplit', hlength, hfront, hstep, -, hscope, hb⟩ := hmade
  obtain ⟨rfl, hrest⟩ := List.append_inj hsplit' hlength.symm
  obtain ⟨rfl, -⟩ := List.cons.inj hrest
  rename_i u v σ σ' scope
  obtain ⟨hbody, hk⟩ :=
    inClassBody_of_balanced hinner (declaredAt?_of_declares hm hC) {} s u σ hfront
  have hopened : Yields (perform c q i u (.openFunction method f)) fun v =>
      ∀ scope, v.scopes[0]? = some scope → scope.bindings.find? r =
        some (receiverBinding ⟨i, ⟨p.line, p.column⟩⟩ f) := by
    refine (find?_bindParameters hbody hk hf hparameters (List.nodup_cons.mp honce).1).bind
      fun t ht => yields_pure ?_
    rintro scope ⟨⟩
    exact ht
  obtain rfl := Option.some.inj (hb.symm.trans (hopened σ v σ' hstep scope hscope))
  exact isReceiver_receiverBinding _ f

/-- **Sites are stores to their class**, where the name of the receiver comes from the method. Every
site of a declared class is the place of a store to the receiver in one of its methods, which the
walk comes to in the body of the class. Where the walk comes to a store at that place in the method,
and the name of the receiver is bound by the parameters of the method there and by nothing since, it
denotes the class or an instance of it: whatever the names around the class are bound to, and
whatever answers have been kept. -/
theorem resolves_receiver_of_site {c : Codebase} {i : Nat}
    (hm : c.modules[i]? = some (extractModule m))
    (hC : m.Declares container (.classDef p name bases keywords body decorators))
    {site : FieldSite} (hsite : site ∈ (Members.ofBody (ClassName.of m name container) body).2) :
    ∃ M ∈ body, ∃ r n, M.receiver? = some r ∧ (n, site.attr) ∈ receiverStores M ∧
      n.position = site.position ∧
      (∃ outside, m.ComesToMethod name ⟨p.line, p.column⟩ M outside) ∧
      ((ownParameters M).Nodup → ∀ outside, m.ComesToMethod name ⟨p.line, p.column⟩ M outside →
        ∀ early late line updates, functionSteps M =
            early ++ .member site.position line (.name r) site.attr .store updates :: late →
          originOf r (outside ++ early) = some ⟨outside.length, true⟩ →
            ∀ q, Yields ((outside ++ early).foldlM (perform c q i) {}) fun w =>
              ∃ b, resolveIn c q i w (.name r) = pure (some b) ∧
                b.IsReceiver ⟨i, ⟨p.line, p.column⟩⟩) := by
  obtain ⟨e, he, rfl⟩ := List.mem_map.mp (Members.sites_ofBody_subset _ body hsite)
  obtain ⟨M, hmem, he⟩ := List.mem_flatMap.mp he
  obtain ⟨r, hM⟩ : ∃ r, M.receiver? = some r := by
    rw [receiverStores] at he
    split at he
    · cases he
    · exact ⟨_, by assumption⟩
  refine ⟨M, hmem, r, e.1, hM, he, rfl, exists_comesToMethod hC hmem hM, ?_⟩
  intro honce outside hcomes early late line updates hsplit horigin q s w s' hw
  obtain ⟨b, hb, hreceiver⟩ :=
    resolves_of_originOf hm hC hM honce hcomes hsplit (ne_nil_of_member hM hsplit) horigin q s w
      s' hw
  refine ⟨b, ?_, hreceiver⟩
  rw [resolveIn, resolve, lookupIn, hb]

/-- Whether a module is one class statement of a certain kind. -/
def onlyClass (P : Place → String → List Node → Bool) (m : SourceModule) : Bool :=
  match m.body with
  | [.classDef p name _ _ body _] => P p name body
  | _ => false

theorem exists_declares_of_onlyClass {P : Place → String → List Node → Bool}
    (h : m.onlyClass P = true) :
    ∃ p name bases keywords body decorators, P p name body = true ∧
      m.Declares none (.classDef p name bases keywords body decorators) := by
  rw [onlyClass] at h
  split at h
  · rename_i p name bases keywords body decorators hbody
    refine ⟨p, name, bases, keywords, body, decorators, h, .level ?_⟩
    rw [hbody, moduleStatements]
    exact List.mem_cons_self
  · cases h

/-- A method that stores to its receiver at its own level. -/
theorem resolves_receiver_of_site_level :
    let m := readModule "m" "class C:\n    def f(self):\n        self.x = 1\n"
    let c := Codebase.ofModules [extractModule m]
    ∃ p name bases keywords body decorators,
      m.Declares none (.classDef p name bases keywords body decorators) ∧
      ⟨⟨2, 8⟩, "x"⟩ ∈ (Members.ofBody (ClassName.of m name none) body).2 ∧
      ∃ before after, stepsAll m.body =
          before ++ .member ⟨2, 8⟩ 2 (.name "self") "x" .store false :: after ∧
        ∀ q, Yields (before.foldlM (perform c q 0) {}) fun w =>
          ∃ b, resolveIn c q 0 w (.name "self") = pure (some b) ∧
            b.IsReceiver ⟨0, ⟨p.line, p.column⟩⟩ := by
  intro m c
  let o : Step := .openFunction "f" ⟨.anInstance, [("self", .nothing)], []⟩
  let store : Step := .member ⟨2, 8⟩ 2 (.name "self") "x" .store false
  let late : List Step := [.assign [] .unknown]
  have hshape : m.onlyClass (fun p name body => decide (p.line = 0 ∧ p.column = 0 ∧ name = "C" ∧
      (Members.ofBody (ClassName.of m name none) body).2 = [⟨⟨2, 8⟩, "x"⟩] ∧
      body.map (fun M => (M.receiver?, ownParameters M, functionSteps M)) =
        [(some "self", ["self"], o :: .name 2 "self" .load :: store :: late)])) = true := by
    decide +kernel
  have hwalk : stepsAll m.body = [.openClass "C" ⟨0, 0⟩] ++
      (o :: .name 2 "self" .load :: store :: late) ++ [.closeScope, .closeClass] := by
    decide +kernel
  obtain ⟨p, name, bases, keywords, body, decorators, hclass, hC⟩ :=
    exists_declares_of_onlyClass hshape
  obtain ⟨hline, hcolumn, rfl, hsites, hbody⟩ := of_decide_eq_true hclass
  have hsite : ⟨⟨2, 8⟩, "x"⟩ ∈ (Members.ofBody (ClassName.of m "C" none) body).2 := by
    rw [hsites]
    exact List.mem_singleton_self _
  obtain ⟨M, hmem, r, n, hM, -, -, -, hresolves⟩ :=
    resolves_receiver_of_site (c := c) (i := 0) rfl hC hsite
  have hmethod : (M.receiver?, ownParameters M, functionSteps M) ∈
      body.map fun M => (M.receiver?, ownParameters M, functionSteps M) :=
    List.mem_map_of_mem hmem
  rw [hbody, List.mem_singleton, Prod.mk.injEq, Prod.mk.injEq] at hmethod
  obtain ⟨hreceiver, hparameters, hsteps⟩ := hmethod
  obtain rfl : r = "self" := Option.some.inj (hM.symm.trans hreceiver)
  refine ⟨p, "C", bases, keywords, body, decorators, hC, hsite,
    [.openClass "C" ⟨0, 0⟩, o, .name 2 "self" .load], _, hwalk, fun q => ?_⟩
  refine hresolves (by rw [hparameters]; decide) [.openClass "C" ⟨0, 0⟩] ?_
    [o, .name 2 "self" .load] late 2 false hsteps (by decide) q
  exact ⟨⟨_, by rw [hsteps]; exact hwalk⟩, [], [], by rw [hline, hcolumn]; rfl, .nil⟩

/-- A parameter of a function within a method takes the name of the receiver, and what is stored
there to a member of it declares a field of the class. -/
theorem not_always_resolves_receiver :
    ¬ ∀ (source : String) (m : SourceModule), parseModule source = .ok m.body →
      ∀ container p name bases keywords body decorators,
        m.Declares container (.classDef p name bases keywords body decorators) →
        ∀ site ∈ (Members.ofBody (ClassName.of m name container) body).2,
        ∀ before line r updates after, stepsAll m.body =
            before ++ .member site.position line (.name r) site.attr .store updates :: after →
          let c := Codebase.ofModules [extractModule m]
          Yields (before.foldlM (perform c c.ask 0) {}) fun w =>
            ∃ b, resolveIn c c.ask 0 w (.name r) = pure (some b) ∧
              b.IsReceiver ⟨0, ⟨p.line, p.column⟩⟩ := by
  intro h
  let source := "class C:\n    def f(self):\n        def g(self):\n            self.x = 1\n"
  let m := readModule "m" source
  let c := Codebase.ofModules [extractModule m]
  have hshape : m.onlyClass (fun p name body =>
      (Members.ofBody (ClassName.of m name none) body).2 = [⟨⟨3, 12⟩, "x"⟩]) = true := by
    decide +kernel
  obtain ⟨p, name, bases, keywords, body, decorators, hclass, hC⟩ :=
    exists_declares_of_onlyClass hshape
  have hsites := of_decide_eq_true hclass
  let before := (stepsAll m.body).take 4
  have hsteps : stepsAll m.body = before ++ .member ⟨3, 12⟩ 3 (.name "self") "x" .store false ::
      (stepsAll m.body).drop 5 := by decide +kernel
  have hother : ((before.foldlM (perform c c.ask 0) {} >>= fun w =>
      resolveIn c c.ask 0 w (.name "self")).run []).1.toOption = some (some .other) := by
    decide +kernel
  have hyields := h source m (parseModule_readModule (by decide +kernel)) none p name bases keywords
    body decorators hC ⟨⟨3, 12⟩, "x"⟩ (by rw [hsites]; exact List.mem_singleton_self _) before 3
    "self" false _ hsteps
  rw [run_bind] at hother
  rcases hrun : (before.foldlM (perform c c.ask 0) {}).run [] with ⟨e | w, s⟩
  · rw [hrun] at hother
    cases hother
  · rw [hrun] at hother
    obtain ⟨b, hb, hreceiver⟩ := hyields [] w s hrun
    dsimp only at hother
    rw [hb] at hother
    obtain rfl : b = .other := Option.some.inj (Option.some.inj hother)
    rcases hreceiver with ⟨⟨⟩⟩ | ⟨⟨⟩⟩

end SourceModule

end Concordance
