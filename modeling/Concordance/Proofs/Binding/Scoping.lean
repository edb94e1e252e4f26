import Concordance.Proofs.Binding.Frames

/-!
# What steps bind and what they look up

Balanced steps leave a walk as they found it, but for what has been recorded and for the names that
they bind in the scope that they begin in. What scopes they open they close, and with each of them
goes all that was bound in it. So what is looked up under another name is the same before them and
after them, and so is what an expression denotes that is resolved by other names.

## Main definitions

* `Step.asked`: the names that a step looks up
* `boundAt`: the names that steps bind in the scope that they begin in
* `Scope.view`: what a scope is with regard to one name
* `OnlyNotes`: work that adds references to a walk, and nothing else
* `Leaves`: a walk is as another one, but for some names of the innermost scope
* `introduce`, `Step.close`: the name of a definition is bound, and its scope closed again

## Main results

* `Balanced.leaves`: what balanced steps leave a walk as
* `resolveIn_congr`: expressions depend on the names that they are resolved by
-/

namespace Concordance.Binding

open Syntax

/-! ### Names of steps -/

/-- The names that a step looks up. -/
def Step.asked : Step → List String
  | .name _ id .load => [id]
  | .member _ _ value _ _ _ => value.asked
  | .call _ callee => callee.asked
  | .assign _ value => value.asked
  | .hinted _ hint value => hint.asked ++ (value.map Designator.asked).getD []
  | .caught _ (some type) => type.asked
  | .openFunction _ f => f.parameters.flatMap fun p => p.2.asked
  | _ => []

/-- The names that steps bind in the scope that is `depth` scopes further out. -/
def boundAt : (depth : Nat) → List Step → List String
  | _, [] => []
  | depth, s :: rest =>
    (if depth = 0 then s.bound else []) ++
      match s.shift with
      | .stays => boundAt depth rest
      | .opens => boundAt (depth + 1) rest
      | .closes => boundAt (depth - 1) rest

theorem Balanced.boundAt_append {xs : List Step} (h : Balanced xs) (depth : Nat) (ys : List Step) :
    boundAt depth (xs ++ ys) = boundAt depth xs ++ boundAt depth ys := by
  induction h generalizing depth ys with
  | nil => rfl
  | single hs => simp [boundAt, hs]
  | @scope o inner ho _ ih =>
    have hclosing : boundAt (depth + 1) (o.closing :: ys) = boundAt depth ys := by
      simp [boundAt, o.shift_closing]
    have hclosed : boundAt (depth + 1) [o.closing] = [] := by
      simp [boundAt, o.shift_closing]
    simp only [List.cons_append, List.append_assoc, List.nil_append, boundAt, ho]
    rw [ih, ih, hclosing, hclosed, List.append_nil]
  | append _ _ ihx ihy => rw [List.append_assoc, ihx, ihy, ihx, List.append_assoc]

/-! ### Scopes with regard to one name -/

/-- What a scope is with regard to one name: its kind, and what the name is bound to in it. -/
def Scope.view (n : String) (s : Scope) : ScopeKind × Option Denotation :=
  (s.kind, s.bindings.find? n)

theorem findOutside_congr {n : String} {ss ss' : List Scope}
    (h : ss.map (Scope.view n) = ss'.map (Scope.view n)) :
    findOutside n ss = findOutside n ss' := by
  induction ss generalizing ss' with
  | nil => rw [List.map_eq_nil_iff.mp h.symm]
  | cons s rest ih =>
    obtain ⟨s', rest', rfl, hview, hrest⟩ := List.map_eq_cons_iff.mp h.symm
    obtain ⟨hkind, hfind⟩ := Prod.mk.inj hview
    rw [findOutside, findOutside, hkind, hfind, ih hrest.symm]

theorem findInScopes_congr {n : String} {ss ss' : List Scope}
    (h : ss.map (Scope.view n) = ss'.map (Scope.view n)) :
    findInScopes n ss = findInScopes n ss' := by
  cases ss with
  | nil => rw [List.map_eq_nil_iff.mp h.symm]
  | cons s rest =>
    obtain ⟨s', rest', rfl, hview, hrest⟩ := List.map_eq_cons_iff.mp h.symm
    rw [findInScopes, findInScopes, (Prod.mk.inj hview).2, findOutside_congr hrest.symm]

/-- Bind a name in a scope. -/
def Scope.set (name : String) (b : Denotation) (s : Scope) : Scope :=
  { s with bindings := s.bindings.insert name b }

theorem view_set_congr {n : String} {s s' : Scope} (name : String) (b : Denotation)
    (h : s.view n = s'.view n) : (s.set name b).view n = (s'.set name b).view n := by
  obtain ⟨hkind, hfind⟩ := Prod.mk.inj h
  simp [Scope.view, Scope.set, Table.find?_insert, hkind, hfind]

theorem scopes_bind (name : String) (b : Option Denotation) (w : Walk) :
    (w.bind name b).scopes = w.scopes.modifyHead (Scope.set name (b.getD .other)) := by
  cases hscopes : w.scopes <;> simp [Walk.bind, Scope.set, hscopes]

theorem map_view_bind {n name : String} (h : n ≠ name) (b : Option Denotation) (w : Walk) :
    (w.bind name b).scopes.map (Scope.view n) = w.scopes.map (Scope.view n) := by
  rw [scopes_bind]
  cases w.scopes <;> simp [Scope.view, Scope.set, Table.find?_insert, Ne.symm h]

theorem findInScopes_bind {name : String} {w : Walk} (h : w.scopes ≠ []) (b : Option Denotation) :
    findInScopes name (w.bind name b).scopes = some (b.getD .other) := by
  obtain ⟨s, rest, hscopes⟩ := List.exists_cons_of_ne_nil h
  rw [scopes_bind, hscopes]
  simp [Scope.set, findInScopes, Table.find?_insert]

theorem kinds_bind (name : String) (b : Option Denotation) (w : Walk) :
    (w.bind name b).scopes.map Scope.kind = w.scopes.map Scope.kind := by
  rw [scopes_bind]
  cases w.scopes <;> simp [Scope.set]

theorem classes_bind (name : String) (b : Option Denotation) (w : Walk) :
    (w.bind name b).classes = w.classes := by
  rw [Walk.bind]
  split <;> rfl

/-! ### Lookups -/

theorem sequential_eq : Sequential fun _ x y => x = y where
  pure _ := rfl
  bind := by
    rintro α β x _ f g rfl hfg
    rw [funext hfg]

/-- Work goes on alike if it does from whatever the work before can end with. -/
theorem Yields.bind_congr {α β : Type} {x : Resolve α} {f g : α → Resolve β}
    (h : Yields x fun a => f a = g a) : x >>= f = x >>= g := by
  funext s
  show (x >>= f).run s = (x >>= g).run s
  rw [run_bind, run_bind]
  cases hrun : x.run s with
  | mk r s' =>
    cases r with
    | error e => rfl
    | ok a => exact congrFun (h s a s' hrun) s'

section

variable {c : Codebase} {q : Questions} {m : Nat} {w w' : Walk}

theorem lookupIn_congr {n : String} (h : findInScopes n w.scopes = findInScopes n w'.scopes) :
    lookupIn q m w n = lookupIn q m w' n := by
  rw [lookupIn, lookupIn, h]

/-- What an expression denotes where a walk stands depends on the names that it is resolved by, and
on the class around. -/
theorem resolveIn_congr {d : Designator}
    (h : ∀ n ∈ d.asked, findInScopes n w.scopes = findInScopes n w'.scopes)
    (hclasses : w.classes = w'.classes) : resolveIn c q m w d = resolveIn c q m w' d :=
  sequential_eq.resolve_of_asked (fun _ _ => rfl) (fun n hn => lookupIn_congr (h n hn))
    fun _ => by rw [Walk.enclosing, Walk.enclosing, hclasses]

end

/-! ### Steps that record -/

namespace Walk

/-- Note several references, last first. -/
def note (more : List (String × Nat)) (w : Walk) : Walk := { w with found := more ++ w.found }

theorem note_note (more more' : List (String × Nat)) (w : Walk) :
    (w.note more).note more' = w.note (more' ++ more) := by
  rw [note, note, note, List.append_assoc]

end Walk

section

variable (c : Codebase) (q : Questions) (m : Nat)

theorem exists_recordClass_eq (k : Option ClassId) (line : Nat) :
    ∃ more, ∀ w, recordClass c k line w = w.note more := by
  unfold recordClass
  cases k.bind c.classSymbol? with
  | none => exact ⟨[], fun w => rfl⟩
  | some s => exact ⟨[(s.id, line)], fun w => rfl⟩

theorem exists_recordMember_eq (s : Symbol) (position : Position) (line : Nat) (attr : String)
    (use : Use) (updates : Bool) :
    ∃ more, ∀ w, recordMember c m s position line attr use updates w = w.note more := by
  have haccessors (accessors : List Symbol) :
      ∃ more, ∀ w : Walk, accessors.foldl (fun w a => w.record a line) w = w.note more := by
    induction accessors with
    | nil => exact ⟨[], fun w => rfl⟩
    | cons a rest ih =>
      obtain ⟨more, hmore⟩ := ih
      refine ⟨more ++ [(a.id, line)], fun w => ?_⟩
      rw [List.foldl_cons, hmore, ← Walk.note_note]
      rfl
  unfold recordMember
  cases s.kind with
  | property => exact haccessors _
  | field =>
    dsimp only
    split
    · exact ⟨[], fun w => rfl⟩
    · exact ⟨[(s.id, line)], fun w => rfl⟩
  | type => exact ⟨[(s.id, line)], fun w => rfl⟩
  | method => exact ⟨[(s.id, line)], fun w => rfl⟩

/-- All that is done to a walk is to add references, whatever walk it is. -/
def OnlyNotes (f : Walk → Resolve Walk) : Prop :=
  ∃ found : Resolve (List (String × Nat)), ∀ w, f w = (do let more ← found; pure (w.note more))

theorem onlyNotes_of_eq {f : Walk → Walk} {more : List (String × Nat)}
    (h : ∀ w, f w = w.note more) : OnlyNotes fun w => pure (f w) :=
  ⟨pure more, fun w => congrArg pure (h w)⟩

theorem onlyNotes_pure : OnlyNotes pure := ⟨pure [], fun _ => rfl⟩

/-- Which references are added may depend on what an expression denotes. -/
theorem exists_noted {x : Walk → Resolve (Option Denotation)}
    {meet : Walk → Option Denotation → Resolve Walk} (h : ∀ b, OnlyNotes fun w => meet w b) :
    ∃ found : Option Denotation → Resolve (List (String × Nat)), ∀ w,
      x w >>= meet w = (do let b ← x w; let more ← found b; pure (w.note more)) := by
  choose found hfound using h
  exact ⟨found, fun w => bind_congr fun b => hfound b w⟩

/-- A member that is met only adds references, and which ones depends on what it is a member of. -/
theorem exists_meetMember_eq (position : Position) (line : Nat) (value : Designator)
    (attr : String) (use : Use) (updates : Bool) :
    ∃ found : Option Denotation → Resolve (List (String × Nat)), ∀ w,
      meetMember c q m w position line value attr use updates =
        (do let b ← resolveIn c q m w value
            let more ← found b
            pure (w.note more)) := by
  refine exists_noted fun b => ?_
  cases b with
  | none => exact onlyNotes_pure
  | some b =>
    dsimp only
    split
    · rename_i s owner _
      obtain ⟨more, hmore⟩ := exists_recordMember_eq c m s position line attr use updates
      exact onlyNotes_of_eq hmore
    · split
      · rename_i name _
        choose more hmore using fun k => exists_recordClass_eq c k line
        exact ⟨do return more ((← memberOf c q (.moduleNamed name) attr).bind
          Denotation.ownClass?), fun w => by simp [hmore]⟩
      · exact onlyNotes_pure

/-- A call that is met only adds references, and which ones depends on what is called. -/
theorem exists_meetCall_eq (line : Nat) (callee : Designator) :
    ∃ found : Option Denotation → Resolve (List (String × Nat)), ∀ w,
      meetCall c q m w line callee =
        (do let b ← resolveIn c q m w callee
            let more ← found b
            pure (w.note more)) := by
  refine exists_noted fun b => ?_
  split
  · split
    · rename_i s _ _
      have hrecord (w : Walk) : (if s.kind = .method then w.record s line else w) =
          w.note (if s.kind = .method then [(s.id, line)] else []) := by
        split <;> rfl
      exact onlyNotes_of_eq hrecord
    · exact onlyNotes_pure
  · exact onlyNotes_pure

end

/-! ### What steps leave -/

/-- A walk stands in the same scopes and classes as another one, and the innermost scope is the same
but for some names. -/
structure Leaves (names : List String) (w v : Walk) : Prop where
  classes : v.classes = w.classes
  kinds : v.scopes.map Scope.kind = w.scopes.map Scope.kind
  tail : v.scopes.tail = w.scopes.tail
  view : ∀ n ∉ names, v.scopes.map (Scope.view n) = w.scopes.map (Scope.view n)

section

variable {names more : List String} {u v w : Walk}

theorem Leaves.of_eq (hscopes : v.scopes = w.scopes) (hclasses : v.classes = w.classes) :
    Leaves names w v :=
  ⟨hclasses, by rw [hscopes], by rw [hscopes], fun _ _ => by rw [hscopes]⟩

theorem Leaves.mono (h : Leaves names w v) (hnames : names ⊆ more) : Leaves more w v :=
  ⟨h.classes, h.kinds, h.tail, fun n hn => h.view n fun hmem => hn (hnames hmem)⟩

theorem Leaves.trans (h : Leaves names w u) (h' : Leaves more u v) :
    Leaves (names ++ more) w v where
  classes := h'.classes.trans h.classes
  kinds := h'.kinds.trans h.kinds
  tail := h'.tail.trans h.tail
  view n hn := by
    rw [List.mem_append, not_or] at hn
    exact (h'.view n hn.2).trans (h.view n hn.1)

theorem Leaves.scopes_ne_nil (h : Leaves names w v) (hw : w.scopes ≠ []) : v.scopes ≠ [] := by
  intro hnil
  have hkinds := h.kinds
  rw [hnil] at hkinds
  exact hw (List.map_eq_nil_iff.mp hkinds.symm)

theorem leaves_bind (name : String) (b : Option Denotation) (w : Walk) :
    Leaves [name] w (w.bind name b) where
  classes := classes_bind name b w
  kinds := kinds_bind name b w
  tail := by
    rw [scopes_bind]
    cases w.scopes <;> rfl
  view n hn := map_view_bind (List.mem_singleton.not.mp hn) b w

theorem leaves_foldl_bind (names : List String) (b : Option Denotation) (w : Walk) :
    Leaves names w (names.foldl (fun w name => w.bind name b) w) := by
  induction names generalizing w with
  | nil => exact .of_eq rfl rfl
  | cons name rest ih => exact (leaves_bind name b w).trans (ih (w.bind name b))

end

section

variable {c : Codebase} {q : Questions} {m : Nat}

/-- A step that neither opens nor closes a scope binds its names. -/
theorem leaves_perform (w : Walk) {s : Step} (hs : s.shift = .stays) :
    Yields (perform c q m w s) (Leaves s.bound w) := by
  have hsame {names : List String} (more : List (String × Nat)) : Leaves names w (w.note more) :=
    .of_eq rfl rfl
  cases s with
  | name line id use =>
    cases use with
    | load =>
      refine yields_bind fun found => yields_pure ?_
      obtain ⟨more, hmore⟩ := exists_recordClass_eq c (found.bind Denotation.ownClass?) line
      rw [hmore]
      exact hsame more
    | store => exact yields_pure (leaves_bind id none w)
    | delete => exact yields_pure (leaves_bind id none w)
  | member position line value attr use updates =>
    obtain ⟨found, hfound⟩ := exists_meetMember_eq c q m position line value attr use updates
    rw [perform, hfound]
    exact yields_bind fun b => yields_bind fun more => yields_pure (hsame more)
  | call line callee =>
    obtain ⟨found, hfound⟩ := exists_meetCall_eq c q m line callee
    rw [perform, hfound]
    exact yields_bind fun b => yields_bind fun more => yields_pure (hsame more)
  | assign names value => exact yields_bind fun b => yields_pure (leaves_foldl_bind names _ w)
  | hinted name hint value => exact yields_bind fun b => yields_pure (leaves_bind name _ w)
  | bindOther name => exact yields_pure (leaves_bind name none w)
  | moduleImport name target => exact yields_pure (leaves_bind name _ w)
  | nameImport name level source target =>
    rw [perform]
    split
    · exact yields_pure (hsame [])
    · exact yields_bind fun b => yields_pure (leaves_bind name _ w)
  | caught name type =>
    cases type <;> exact yields_bind fun b => yields_pure (leaves_bind name _ w)
  | openClass name position => cases hs
  | openFunction name f => cases hs
  | openScope names => cases hs
  | closeClass => cases hs
  | closeScope => cases hs

/-- A walk in which the name of a definition is bound, the body of which a step opens. -/
def introduce (c : Codebase) (m : Nat) (o : Step) (w : Walk) : Walk :=
  match o with
  | .openClass name position =>
    w.bind name ((declaredAt? c m position).map fun k => .classObject k false)
  | .openFunction name _ => w.bind name none
  | _ => w

/-- A walk in which the scope is closed that a step has opened. -/
def Step.close (o : Step) (w : Walk) : Walk :=
  match o with
  | .openClass .. => { w.closeScope with classes := w.classes.tail }
  | _ => w.closeScope

theorem leaves_introduce (w : Walk) {o : Step} (ho : o.shift = .opens) :
    Leaves o.bound w (introduce c m o w) := by
  cases o with
  | openClass name position => exact leaves_bind name _ w
  | openFunction name f => exact leaves_bind name none w
  | openScope ids => exact .of_eq rfl rfl
  | _ => cases ho

theorem perform_closing (o : Step) (w : Walk) :
    perform c q m w o.closing = pure (o.close w) := by
  cases o <;> rfl

/-- What a step leads to that opens a scope. -/
structure Opened (c : Codebase) (m : Nat) (o : Step) (w w' : Walk) : Prop where
  scopes : ∃ s, w'.scopes = s :: (introduce c m o w).scopes
  classes : ∃ more, w'.classes = more ++ w.classes
  closed : (o.close w').classes = w.classes

theorem yields_opened (w : Walk) {o : Step} (ho : o.shift = .opens) :
    Yields (perform c q m w o) (Opened c m o w) := by
  cases o with
  | openClass name position => exact yields_pure ⟨⟨_, rfl⟩, ⟨[_], rfl⟩, rfl⟩
  | openFunction name f =>
    refine yields_bind fun parameters => yields_pure ⟨⟨_, rfl⟩, ⟨[], ?_⟩, ?_⟩
    · exact classes_bind name none w
    · exact classes_bind name none w
  | openScope ids => exact yields_pure ⟨⟨_, rfl⟩, ⟨[], rfl⟩, rfl⟩
  | _ => cases ho

/-- When the scope is closed again, what has been bound in it is gone. -/
theorem Opened.close {o : Step} {w w' v : Walk} {names : List String} (h : Opened c m o w w')
    (hv : Leaves names w' v) :
    (o.close v).scopes = (introduce c m o w).scopes ∧ (o.close v).classes = w.classes := by
  obtain ⟨s, hs⟩ := h.scopes
  have hscopes : (o.close v).scopes = v.scopes.tail := by
    cases o <;> rfl
  have hclasses : (o.close v).classes = (o.close w').classes := by
    cases o <;> simp [Step.close, Walk.closeScope, hv.classes]
  rw [hscopes, hclasses, hv.tail, hs]
  exact ⟨rfl, h.closed⟩

/-- A step that opens a scope binds its names around it, and they are left when it is closed. -/
theorem Opened.leaves {o : Step} (ho : o.shift = .opens) {w w' v : Walk} {names : List String}
    (h : Opened c m o w w') (hv : Leaves names w' v) : Leaves o.bound w (o.close v) := by
  obtain ⟨hscopes, hclasses⟩ := h.close hv
  have hintroduce := leaves_introduce (c := c) (m := m) w ho
  have hclosed : Leaves [] (introduce c m o w) (o.close v) :=
    .of_eq hscopes (hclasses.trans hintroduce.classes.symm)
  simpa using hintroduce.trans hclosed

/-- **Balanced steps leave a walk as it was**, but for what has been recorded and for the names that
they bind in the scope that they begin in. -/
theorem Balanced.leaves {xs : List Step} (h : Balanced xs) (w : Walk) :
    Yields (xs.foldlM (perform c q m) w) (Leaves (boundAt 0 xs) w) := by
  induction h generalizing w with
  | nil => exact yields_pure (.of_eq rfl rfl)
  | @single s hs =>
    have hs' : [s].foldlM (perform c q m) w = perform c q m w s := by simp
    rw [hs', show boundAt 0 [s] = s.bound by simp [boundAt, hs]]
    exact leaves_perform w hs
  | @scope o inner ho _ ih =>
    rw [List.cons_append, List.foldlM_cons]
    refine (yields_opened w ho).bind fun w' hw' => ?_
    rw [List.foldlM_append]
    refine (ih w').bind fun v hv => ?_
    have hclosing : [o.closing].foldlM (perform c q m) v = pure (o.close v) := by
      simp [perform_closing]
    rw [hclosing]
    exact yields_pure ((hw'.leaves ho hv).mono (List.subset_append_left o.bound _))
  | @append xs ys hx _ ihx ihy =>
    rw [List.foldlM_append]
    refine (ihx w).bind fun u hu => ?_
    intro s v s' hv
    rw [hx.boundAt_append]
    exact hu.trans (ihy u s v s' hv)

end

end Concordance.Binding
