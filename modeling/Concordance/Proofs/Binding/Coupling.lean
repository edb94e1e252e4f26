import Concordance.Proofs.Binding.Hints
import Concordance.Proofs.Binding.Scoping

/-!
# Two walks side by side

Steps that are taken in two walks record the same, if the scopes around them differ in names only
that the steps never look up there. A name that they do look up may be held by a scope that they
have opened themselves, and then it does not matter what it is bound to further out. Which names
are looked up beyond the scopes opened is settled by the steps alone.

The relation between the two walks is that between two runs of a program of which the inputs agree
on what is observed: one lemma for each kind of step, and an induction over the steps.

## Main definitions

* `Coupled`: work that goes alike, with results that are related
* `askedOutside`: the names that steps look up beyond the scopes that they open
* `SeenAlike`, `Differ`: scopes and walks that differ in some names only

## Main results

* `Differ.perform`, `Differ.foldlM`: what steps make of walks that differ in other names
-/

namespace Concordance.Binding

open Syntax

/-! ### Work that goes alike -/

/-- Two ends of work are alike: the same is kept, and both failed in the same way or the results are
related. -/
inductive EndsAlike {α β : Type} (P : α → β → Prop) :
    Except Fault α × Cache → Except Fault β × Cache → Prop where
  | ok {a : α} {b : β} (h : P a b) (s : Cache) : EndsAlike P (.ok a, s) (.ok b, s)
  | error (f : Fault) (s : Cache) : EndsAlike P (.error f, s) (.error f, s)

/-- Two pieces of work end alike, whatever was kept before. -/
def Coupled {α β : Type} (P : α → β → Prop) (x : Resolve α) (y : Resolve β) : Prop :=
  ∀ s, EndsAlike P (x.run s) (y.run s)

section

variable {α β γ δ : Type} {P : α → β → Prop} {Q : γ → δ → Prop} {x : Resolve α} {y : Resolve β}

theorem coupled_pure {a : α} {b : β} (h : P a b) : Coupled P (pure a) (pure b) := fun s => .ok h s

theorem Coupled.bind (h : Coupled P x y) {f : α → Resolve γ} {g : β → Resolve δ}
    (hfg : ∀ a b, P a b → Coupled Q (f a) (g b)) : Coupled Q (x >>= f) (y >>= g) := by
  intro s
  have hs := h s
  rw [run_bind, run_bind]
  generalize x.run s = r at hs ⊢
  generalize y.run s = r' at hs ⊢
  cases hs with
  | ok hab t => exact hfg _ _ hab t
  | error f t => exact .error f t

/-- Work goes like itself. -/
theorem Yields.coupled {S : α → Prop} (h : Yields x S) : Coupled (fun a b => a = b ∧ S a) x x := by
  intro s
  have hs := h s
  generalize x.run s = r at hs ⊢
  obtain ⟨f | a, t⟩ := r
  · exact .error f t
  · exact .ok ⟨rfl, hs a t rfl⟩ t

/-- The same work first, and then work that goes alike. -/
theorem coupled_bind {f : α → Resolve γ} {g : α → Resolve δ} (h : ∀ a, Coupled Q (f a) (g a)) :
    Coupled Q (x >>= f) (x >>= g) := by
  refine (yields_anything x).coupled.bind ?_
  rintro a _ ⟨rfl, -⟩
  exact h a

/-- Work that goes alike comes to the same, as far as what is read off its results does. -/
theorem Coupled.map_eq (h : Coupled P x y) {f : α → γ} {g : β → γ} (hfg : ∀ a b, P a b → f a = g b) :
    f <$> x = g <$> y := by
  rw [map_eq_pure_bind, map_eq_pure_bind]
  funext s
  show (x >>= fun a => pure (f a)).run s = (y >>= fun b => pure (g b)).run s
  have hs := h s
  rw [run_bind, run_bind]
  generalize x.run s = r at hs ⊢
  generalize y.run s = r' at hs ⊢
  cases hs with
  | ok hab t =>
    dsimp only
    rw [hfg _ _ hab]
  | error f t => rfl

end

/-! ### Scopes that differ in some names -/

/-- The names that steps look up and that no scope holds which has been opened by then; `known` is
what is known of those scopes. -/
def askedOutside (known : String → List Frame) : List Step → List String
  | [] => []
  | s :: rest =>
    (s.asked.filter fun n => (seen (known n)).isNone) ++
      askedOutside (fun n => enter n (known n) s) rest

/-- Two stacks of scopes of the same kinds. The innermost ones are the same with regard to a name,
and as they are known to be; those around them are so if `same`. -/
inductive SeenAlike (n : String) (same : Prop) : List Frame → List Scope → List Scope → Prop where
  | around {ss ss' : List Scope} (hkinds : ss.map Scope.kind = ss'.map Scope.kind)
      (hview : same → ss.map (Scope.view n) = ss'.map (Scope.view n)) : SeenAlike n same [] ss ss'
  | within {f : Frame} {s s' : Scope} {known : List Frame} {ss ss' : List Scope}
      (hkind : s.kind = f.kind) (hview : s.view n = s'.view n)
      (hheld : f.hold ≠ none → s.bindings.find? n ≠ none) (h : SeenAlike n same known ss ss') :
      SeenAlike n same (f :: known) (s :: ss) (s' :: ss')

namespace SeenAlike

variable {n : String} {same : Prop} {known : List Frame} {ss ss' : List Scope}

theorem kinds (h : SeenAlike n same known ss ss') : ss.map Scope.kind = ss'.map Scope.kind := by
  induction h with
  | around hkinds _ => exact hkinds
  | within _ hview _ _ ih => rw [List.map_cons, List.map_cons, ih, (Prod.mk.inj hview).1]

theorem tail (h : SeenAlike n same known ss ss') : SeenAlike n same known.tail ss.tail ss'.tail := by
  cases h with
  | around hkinds hview =>
    refine .around ?_ fun hsame => ?_
    · rw [List.map_tail, List.map_tail, hkinds]
    · rw [List.map_tail, List.map_tail, hview hsame]
  | within _ _ _ h => exact h

/-- A name that the innermost scopes hold, or that is the same around them, is found alike. -/
theorem findOutside_eq (h : SeenAlike n same known ss ss') (hn : same ∨ seenOutside known ≠ none) :
    findOutside n ss = findOutside n ss' := by
  induction h with
  | around _ hview => exact findOutside_congr (hview (hn.resolve_right fun h => h rfl))
  | @within f s s' known ss ss' hkind hview hheld _ ih =>
    obtain ⟨hkinds, hfind⟩ := Prod.mk.inj hview
    rw [findOutside, findOutside, ← hkinds, ← hfind]
    rw [seenOutside, ← hkind] at hn
    cases hs : s.kind with
    | classBody =>
      rw [hs] at hn
      exact ih hn
    | function =>
      rw [hs] at hn
      dsimp only at hn ⊢
      cases hfound : s.bindings.find? n with
      | some b => rw [Option.some_or, Option.some_or]
      | none =>
        have hfree : f.hold = none := Decidable.not_not.mp fun hhold => hheld hhold hfound
        rw [hfree, Option.none_or] at hn
        rw [Option.none_or, Option.none_or, ih hn]

theorem findInScopes_eq (h : SeenAlike n same known ss ss') (hn : same ∨ seen known ≠ none) :
    findInScopes n ss = findInScopes n ss' := by
  cases h with
  | around _ hview => exact findInScopes_congr (hview (hn.resolve_right fun h => h rfl))
  | @within f s s' known ss ss' hkind hview hheld h =>
    rw [findInScopes, findInScopes, ← (Prod.mk.inj hview).2]
    cases hfound : s.bindings.find? n with
    | some b => rw [Option.some_or, Option.some_or]
    | none =>
      have hfree : f.hold = none := Decidable.not_not.mp fun hhold => hheld hhold hfound
      rw [seen, hfree, Option.none_or] at hn
      rw [Option.none_or, Option.none_or, h.findOutside_eq hn]

/-- The same name is bound to the same in the innermost scopes. -/
theorem bind {w w' : Walk} (h : SeenAlike n same known w.scopes w'.scopes) (name : String)
    (b : Option Denotation) (k : Hold) :
    SeenAlike n same (if n ∈ [name] then holdBy k known else known) (w.bind name b).scopes
      (w'.bind name b).scopes := by
  rw [scopes_bind, scopes_bind]
  generalize w.scopes = ss at h
  generalize w'.scopes = ss' at h
  cases h with
  | around hkinds hview =>
    have hknown : (if n ∈ [name] then holdBy k [] else []) = ([] : List Frame) := by
      split <;> rfl
    rw [hknown]
    cases ss with
    | nil =>
      rw [List.map_eq_nil_iff.mp hkinds.symm]
      exact .around rfl fun _ => rfl
    | cons s rest =>
      obtain ⟨s', rest', rfl, hkind, hrest⟩ := List.map_eq_cons_iff.mp hkinds.symm
      refine .around ?_ fun hsame => ?_
      · exact congrArg₂ List.cons hkind.symm hrest.symm
      · obtain ⟨hhead, htail⟩ := List.cons.inj (hview hsame)
        exact congrArg₂ List.cons (view_set_congr name _ hhead) htail
  | @within f s s' known ss ss' hkind hview hheld h =>
    have hset := view_set_congr name (b.getD .other) hview
    by_cases hn : n = name
    · subst hn
      rw [if_pos (List.mem_singleton_self n)]
      exact .within hkind hset (fun _ => by simp [Scope.set, Table.find?_insert]) h
    · rw [if_neg (List.mem_singleton.not.mpr hn)]
      refine .within hkind hset (fun hhold => ?_) h
      rw [Scope.set, Table.find?_insert, if_neg (Ne.symm hn)]
      exact hheld hhold

end SeenAlike

/-! ### Walks that differ in some names -/

/-- Two walks have recorded the same and stand in the same classes, and of the scopes that are open
only those that are not known differ, and only in some names. -/
structure Differ (known : String → List Frame) (names : List String) (w w' : Walk) : Prop where
  classes : w.classes = w'.classes
  found : w.found = w'.found
  scopes : ∀ n, SeenAlike n (n ∉ names) (known n) w.scopes w'.scopes

namespace Differ

variable {known : String → List Frame} {names : List String} {w w' : Walk}

theorem kinds (h : Differ known names w w') :
    w.scopes.map Scope.kind = w'.scopes.map Scope.kind :=
  (h.scopes "").kinds

theorem inClassBody_eq (h : Differ known names w w') : w.inClassBody = w'.inClassBody := by
  have hkinds := h.kinds
  rw [Walk.inClassBody, Walk.inClassBody]
  cases hs : w.scopes with
  | nil =>
    rw [hs] at hkinds
    rw [List.map_eq_nil_iff.mp hkinds.symm]
  | cons s rest =>
    rw [hs] at hkinds
    obtain ⟨s', rest', hs', hkind, -⟩ := List.map_eq_cons_iff.mp hkinds.symm
    rw [hs']
    simp [hkind]

theorem isEmpty_scopes (h : Differ known names w w') : w.scopes.isEmpty = w'.scopes.isEmpty := by
  rw [← List.isEmpty_map (f := Scope.kind), h.kinds, List.isEmpty_map]

theorem enclosing_eq (h : Differ known names w w') : w.enclosing = w'.enclosing := by
  rw [Walk.enclosing, Walk.enclosing, h.classes]

theorem findInScopes_eq (h : Differ known names w w') {n : String}
    (hn : n ∈ names → seen (known n) ≠ none) : findInScopes n w.scopes = findInScopes n w'.scopes :=
  (h.scopes n).findInScopes_eq (Decidable.or_iff_not_imp_left.mpr fun hnames =>
    hn (Decidable.not_not.mp hnames))

theorem note (h : Differ known names w w') (more : List (String × Nat)) :
    Differ known names (w.note more) (w'.note more) :=
  ⟨h.classes, by rw [Walk.note, Walk.note, h.found], h.scopes⟩

theorem bind (h : Differ known names w w') (name : String) (b : Option Denotation) (k : Hold) :
    Differ (fun n => if n ∈ [name] then holdBy k (known n) else known n) names (w.bind name b)
      (w'.bind name b) where
  classes := by rw [classes_bind, classes_bind, h.classes]
  found := by rw [Walk.found_bind, Walk.found_bind, h.found]
  scopes n := (h.scopes n).bind name b k

theorem foldl_bind (h : Differ known names w w') (ids : List String) (b : Option Denotation)
    (k : Hold) :
    Differ (fun n => if n ∈ ids then holdBy k (known n) else known n) names
      (ids.foldl (fun w name => w.bind name b) w) (ids.foldl (fun w name => w.bind name b) w') := by
  induction ids generalizing known w w' with
  | nil => exact h
  | cons id rest ih =>
    have hheld (n : String) : (if n ∈ rest then holdBy k (if n ∈ [id] then holdBy k (known n) else
        known n) else if n ∈ [id] then holdBy k (known n) else known n) =
          if n ∈ id :: rest then holdBy k (known n) else known n := by
      by_cases hid : n = id <;> by_cases hrest : n ∈ rest <;> simp [hid, hrest, holdBy_holdBy]
    have hrest := ih (h.bind id b k)
    rwa [funext hheld] at hrest

/-- The same scope is opened in both. -/
theorem openScope (h : Differ known names w w') {s : Scope} {f : String → Frame}
    (hkind : ∀ n, s.kind = (f n).kind)
    (hheld : ∀ n, (f n).hold ≠ none → s.bindings.find? n ≠ none) :
    Differ (fun n => f n :: known n) names (w.openScope s) (w'.openScope s) :=
  ⟨h.classes, h.found, fun n => .within (hkind n) rfl (hheld n) (h.scopes n)⟩

theorem closeScope (h : Differ known names w w') :
    Differ (fun n => (known n).tail) names w.closeScope w'.closeScope :=
  ⟨h.classes, h.found, fun n => (h.scopes n).tail⟩

end Differ

/-! ### Steps -/

section

variable {c : Codebase} {q : Questions} {m : Nat} {known : String → List Frame}
  {names : List String} {w w' : Walk}

theorem bindParameters_congr {f : Signature}
    (hlookup : ∀ p ∈ f.parameters, ∀ n ∈ p.2.asked,
      findInScopes n w.scopes = findInScopes n w'.scopes)
    (hbody : w.inClassBody = w'.inClassBody) (henclosing : w.enclosing = w'.enclosing) :
    bindParameters c q m w f = bindParameters c q m w' f := by
  rw [bindParameters, bindParameters, hbody, henclosing]
  refine sequential_eq.bind (sequential_eq.foldlM (fun t p hp => ?_) _) fun _ => rfl
  refine sequential_eq.bind (sequential_eq.resolveHint_of_asked (fun _ _ => rfl)
    (fun n hn => lookupIn_congr (hlookup p (List.mem_of_mem_drop hp) n hn)) fun _ _ _ => rfl)
    fun _ => rfl

theorem find?_ne_none_of_covers {n : String} {o : Step} {t : Table String Denotation}
    (h : Covers n o.opened t) (hhold : (o.frame n).hold ≠ none) : t.find? n ≠ none := by
  by_cases hmem : n ∈ o.opened
  · rw [Covers, if_pos hmem] at h
    obtain ⟨b, hb, -⟩ := h
    rw [hb]
    exact Option.some_ne_none b
  · simp [Step.frame, hmem] at hhold

/-- **A step goes alike** in two walks if what it looks up is the same in both. -/
theorem Differ.perform (h : Differ known names w w') {s : Step}
    (hs : ∀ n ∈ s.asked, n ∈ names → seen (known n) ≠ none) :
    Coupled (Differ (fun n => enter n (known n) s) names) (perform c q m w s)
      (perform c q m w' s) := by
  have hfind (n : String) (hn : n ∈ s.asked) : findInScopes n w.scopes = findInScopes n w'.scopes :=
    h.findInScopes_eq (hs n hn)
  cases s with
  | name line id use =>
    cases use with
    | load =>
      have hlookup : lookupIn q m w id = lookupIn q m w' id :=
        lookupIn_congr (hfind id (List.mem_singleton_self id))
      rw [Binding.perform, Binding.perform, hlookup]
      refine coupled_bind fun found => coupled_pure ?_
      obtain ⟨more, hmore⟩ := exists_recordClass_eq c (found.bind Denotation.ownClass?) line
      rw [hmore, hmore]
      exact h.note more
    | store => exact coupled_pure (h.bind id none .value)
    | delete => exact coupled_pure (h.bind id none .value)
  | member position line value attr use updates =>
    obtain ⟨found, hfound⟩ := exists_meetMember_eq c q m position line value attr use updates
    rw [Binding.perform, Binding.perform, hfound, hfound, resolveIn_congr hfind h.classes]
    exact coupled_bind fun b => coupled_bind fun more => coupled_pure (h.note more)
  | call line callee =>
    obtain ⟨found, hfound⟩ := exists_meetCall_eq c q m line callee
    rw [Binding.perform, Binding.perform, hfound, hfound, resolveIn_congr hfind h.classes]
    exact coupled_bind fun b => coupled_bind fun more => coupled_pure (h.note more)
  | assign ids value =>
    rw [Binding.perform, Binding.perform, resolveIn_congr hfind h.classes]
    exact coupled_bind fun b => coupled_pure (h.foldl_bind ids _ .value)
  | hinted name hint value =>
    have htyped : resolveTyped c q (lookupIn q m w) w.enclosing hint value =
        resolveTyped c q (lookupIn q m w') w'.enclosing hint value := by
      rw [h.enclosing_eq]
      exact sequential_eq.resolveTyped_of_asked (fun _ _ => rfl) w'.enclosing
        (fun n hn => lookupIn_congr (hfind n hn)) fun _ _ _ => rfl
    rw [Binding.perform, Binding.perform, htyped]
    exact coupled_bind fun b => coupled_pure (h.bind name _ .value)
  | bindOther name => exact coupled_pure (h.bind name none .value)
  | moduleImport name target => exact coupled_pure (h.bind name _ .value)
  | nameImport name level source target =>
    rw [Binding.perform, Binding.perform, h.isEmpty_scopes]
    split
    · rename_i hempty
      have hknown (n : String) : enter n (known n) (.nameImport name level source target) =
          known n := by
        have hnil : known n = [] := by
          have hscopes := h.scopes n
          rw [List.isEmpty_iff.mp hempty] at hscopes
          generalize known n = frames at hscopes ⊢
          generalize w.scopes = ss at hscopes
          cases hscopes
          rfl
        simp [enter, Step.shift, holdBy, hnil]
      rw [funext hknown]
      exact coupled_pure h
    · exact coupled_bind fun b => coupled_pure (h.bind name _ .imported)
  | caught name type =>
    cases type with
    | none => exact coupled_bind fun b => coupled_pure (h.bind name _ .value)
    | some d =>
      have hresolve : resolveIn c q m w d = resolveIn c q m w' d := resolveIn_congr hfind h.classes
      rw [Binding.perform, Binding.perform, hresolve]
      exact coupled_bind fun b => coupled_pure (h.bind name _ .value)
  | openClass name position =>
    have hopened := (h.bind name ((declaredAt? c m position).map fun k => .classObject k false)
      .value).openScope (s := ⟨.classBody, []⟩) (f := fun n =>
        (Step.openClass name position).frame n) (fun _ => rfl) fun n hhold => absurd rfl hhold
    exact coupled_pure ⟨by rw [h.classes], hopened.found, hopened.scopes⟩
  | openFunction name f =>
    have hparameters : bindParameters c q m w f = bindParameters c q m w' f :=
      bindParameters_congr
        (fun p hp n hn => hfind n (List.mem_flatMap.mpr ⟨p, hp, hn⟩)) h.inClassBody_eq h.enclosing_eq
    have hcovers : Yields (bindParameters c q m w' f) fun t =>
        ∀ n, Covers n (Step.openFunction name f).opened t :=
      fun s t s' ht n => covers_bindParameters n c q m w' f s t s' ht
    rw [Binding.perform, Binding.perform, hparameters]
    refine hcovers.coupled.bind ?_
    rintro t _ ⟨rfl, ht⟩
    exact coupled_pure ((h.bind name none .value).openScope (fun _ => rfl) fun n hhold =>
      find?_ne_none_of_covers (ht n) hhold)
  | openScope ids =>
    exact coupled_pure (h.openScope (fun _ => rfl) fun n hhold =>
      find?_ne_none_of_covers (o := .openScope ids) ((covers_nil n).foldl_insert ids) hhold)
  | closeClass =>
    have hclosed := h.closeScope
    exact coupled_pure ⟨by rw [h.classes], hclosed.found, hclosed.scopes⟩
  | closeScope => exact coupled_pure h.closeScope

/-- **Steps go alike** in two walks that differ only in names which they do not look up beyond the
scopes that they open. -/
theorem Differ.foldlM (h : Differ known names w w') {xs : List Step}
    (hxs : ∀ n ∈ askedOutside known xs, n ∉ names) :
    Coupled (Differ (fun n => xs.foldl (enter n) (known n)) names)
      (xs.foldlM (Binding.perform c q m) w) (xs.foldlM (Binding.perform c q m) w') := by
  induction xs generalizing known w w' with
  | nil => exact coupled_pure h
  | cons s rest ih =>
    have hs (n : String) (hn : n ∈ s.asked) (hnames : n ∈ names) : seen (known n) ≠ none := by
      intro hfree
      refine hxs n (List.mem_append_left _ (List.mem_filter.mpr ⟨hn, ?_⟩)) hnames
      rw [hfree]
      rfl
    rw [List.foldlM_cons, List.foldlM_cons]
    exact (h.perform hs).bind fun v v' hv =>
      ih hv fun n hn => hxs n (List.mem_append_right _ hn)

end

end Concordance.Binding
