import Concordance.Proofs.Binding.Scoping

/-!
# Where names were bound

Which step of a walk bound a name where it is found is a matter of the steps alone. Each of the open
scopes holds the name by the last step that bound it there, if there is one, and looking the name up
goes through the scopes in the same way, whatever the name is bound to. So a binding that is found
in the scopes of a walk is the one that a certain step made, in the walk as it was then.

## Main definitions

* `Origin`: which step bound a name
* `Trail`, `trails`: for each open scope by which step it holds a name
* `originOf`: the step that bound a name where it is seen
* `Made`: a step came to bind a name to something

## Main results

* `holds_trails`: the scopes of a walk hold what the steps of their trails made
* `findInScopes_of_originOf`: what is found under a name was made by the step that it comes from
-/

namespace Concordance.Binding

open Syntax

/-! ### Trails -/

/-- Which step bound a name: how many steps came before it, and whether it bound the name in the
scope that it opened. -/
structure Origin where
  before : Nat
  within : Bool
deriving DecidableEq, Repr

/-- What is known of a scope with regard to one name: its kind, and which step bound the name in it
last, if one did. -/
structure Trail where
  kind : ScopeKind
  origin : Option Origin

/-- The innermost scope holds the name by another step. -/
def retrace (o : Origin) : List Trail → List Trail
  | [] => []
  | t :: rest => { t with origin := some o } :: rest

/-- What is known of the scopes after a step that `k` steps came before. -/
def follow (n : String) (k : Nat) (trails : List Trail) (s : Step) : List Trail :=
  let bound := if n ∈ s.bound then retrace ⟨k, false⟩ trails else trails
  match s.shift with
  | .stays => bound
  | .opens => ⟨(s.frame n).kind, if n ∈ s.opened then some ⟨k, true⟩ else none⟩ :: bound
  | .closes => trails.tail

/-- What is known of the scopes that some steps leave open. -/
def trails (n : String) (steps : List Step) : List Trail :=
  steps.zipIdx.foldl (fun trails e => follow n e.2 trails e.1) []

/-- The step that bound a name where it is seen outside of the innermost scope. -/
def tracedOutside : List Trail → Option Origin
  | [] => none
  | t :: rest =>
    match t.kind with
    | .classBody => tracedOutside rest
    | .function => t.origin.or (tracedOutside rest)

/-- The step that bound a name where it is seen from the innermost scope. -/
def traced : List Trail → Option Origin
  | [] => none
  | t :: rest => t.origin.or (tracedOutside rest)

/-- The step that bound a name where it is seen after some steps; none if no open scope that is seen
holds the name. -/
def originOf (n : String) (steps : List Step) : Option Origin := traced (trails n steps)

theorem trails_concat (n : String) (steps : List Step) (s : Step) :
    trails n (steps ++ [s]) = follow n steps.length (trails n steps) s := by
  simp [trails, List.zipIdx_append]

/-! ### Scopes with trails -/

/-- A scope is as it is known to be, and holds the name by what its step made. -/
structure Trail.Holds (made : Origin → Denotation → Prop) (n : String) (t : Trail) (s : Scope) :
    Prop where
  kind : s.kind = t.kind
  bound : ∀ o, t.origin = some o → ∃ b, s.bindings.find? n = some b ∧ made o b
  free : t.origin = none → s.bindings.find? n = none

section

variable {made made' : Origin → Denotation → Prop} {n : String} {ts : List Trail}
  {ss : List Scope}

theorem Trail.Holds.mono {t : Trail} {s : Scope} (h : t.Holds made n s)
    (hmade : ∀ o b, made o b → made' o b) : t.Holds made' n s where
  kind := h.kind
  bound o ho := (h.bound o ho).imp fun b hb => hb.imp_right (hmade o b)
  free := h.free

theorem Trail.Holds.of_view {t : Trail} {s s' : Scope} (h : t.Holds made n s)
    (hview : s'.view n = s.view n) : t.Holds made n s' := by
  obtain ⟨hkind, hfind⟩ := Prod.mk.inj hview
  exact ⟨hkind.trans h.kind, fun o ho => hfind ▸ h.bound o ho, fun ho => hfind.trans (h.free ho)⟩

/-- A name is found outside of the innermost scope where its trail leads. -/
theorem findOutside_of_holds (h : List.Forall₂ (Trail.Holds made n) ts ss) :
    match tracedOutside ts with
    | some o => ∃ b, findOutside n ss = some b ∧ made o b
    | none => findOutside n ss = none := by
  induction h with
  | nil => rfl
  | @cons t s ts ss ht _ ih =>
    rw [tracedOutside, findOutside, ht.kind]
    cases t.kind with
    | classBody => exact ih
    | function =>
      cases horigin : t.origin with
      | none =>
        rw [ht.free horigin, Option.none_or]
        exact ih
      | some o =>
        obtain ⟨b, hb, hmade⟩ := ht.bound o horigin
        exact ⟨b, by rw [hb, Option.some_or], hmade⟩

/-- A name is found where its trail leads. -/
theorem findInScopes_of_holds (h : List.Forall₂ (Trail.Holds made n) ts ss) :
    match traced ts with
    | some o => ∃ b, findInScopes n ss = some b ∧ made o b
    | none => findInScopes n ss = none := by
  cases h with
  | nil => rfl
  | @cons t s ts ss ht hrest =>
    rw [traced, findInScopes]
    cases horigin : t.origin with
    | none =>
      rw [ht.free horigin, Option.none_or]
      exact findOutside_of_holds hrest
    | some o =>
      obtain ⟨b, hb, hmade⟩ := ht.bound o horigin
      exact ⟨b, by rw [hb, Option.some_or], hmade⟩

end

/-! ### What steps do to scopes -/

/-- What a name is bound to in the innermost scope. -/
def Walk.innermost? (n : String) (w : Walk) : Option Denotation :=
  w.scopes.head?.bind fun s => s.bindings.find? n

/-- A walk binds some names in the innermost scope, and nothing else. -/
structure Sets (n : String) (names : List String) (w v : Walk) : Prop where
  leaves : Leaves names w v
  bound : n ∈ names → w.scopes ≠ [] → (v.innermost? n).isSome

section

variable {n : String}

theorem innermost?_bind (name : String) (b : Option Denotation) {w : Walk} (hw : w.scopes ≠ []) :
    (w.bind name b).innermost? n =
      if name = n then some (b.getD .other) else w.innermost? n := by
  obtain ⟨s, rest, hscopes⟩ := List.exists_cons_of_ne_nil hw
  rw [Walk.innermost?, Walk.innermost?, scopes_bind, hscopes]
  simp [Scope.set, Table.find?_insert]

theorem sets_bind (name : String) (b : Option Denotation) (w : Walk) :
    Sets n [name] w (w.bind name b) where
  leaves := leaves_bind name b w
  bound hn hw := by rw [innermost?_bind name b hw, if_pos (List.mem_singleton.mp hn).symm]; rfl

theorem innermost?_foldl_bind (names : List String) (b : Option Denotation) {w : Walk}
    (hw : w.scopes ≠ []) :
    (names.foldl (fun w name => w.bind name b) w).innermost? n =
      if n ∈ names then some (b.getD .other) else w.innermost? n := by
  induction names generalizing w with
  | nil => rfl
  | cons name rest ih =>
    rw [List.foldl_cons, ih ((leaves_bind name b w).scopes_ne_nil hw), innermost?_bind name b hw]
    by_cases hrest : n ∈ rest
    · simp [hrest]
    · by_cases hname : name = n
      · simp [hname]
      · simp [hrest, hname, Ne.symm hname]

/-- Names that have been bound in the innermost scope. -/
theorem find?_of_foldl_bind (names : List String) {b : Option Denotation} {w : Walk}
    {scope : Scope} (hn : n ∈ names)
    (hscope : (names.foldl (fun w name => w.bind name b) w).scopes[0]? = some scope) :
    scope.bindings.find? n = some (b.getD .other) := by
  have hw : w.scopes ≠ [] := by
    intro hw
    have hkinds := (leaves_foldl_bind names b w).kinds
    rw [hw, List.map_nil, List.map_eq_nil_iff] at hkinds
    rw [hkinds] at hscope
    cases hscope
  have hfound := innermost?_foldl_bind (n := n) names b hw
  rw [if_pos hn, Walk.innermost?, List.head?_eq_getElem?, hscope] at hfound
  exact hfound

theorem sets_foldl_bind (names : List String) (b : Option Denotation) (w : Walk) :
    Sets n names w (names.foldl (fun w name => w.bind name b) w) where
  leaves := leaves_foldl_bind names b w
  bound hn hw := by rw [innermost?_foldl_bind names b hw, if_pos hn]; rfl

variable {c : Codebase} {q : Questions} {m : Nat}

/-- A step that neither opens nor closes a scope binds its names. -/
theorem sets_perform (w : Walk) {s : Step} (hs : s.shift = .stays) :
    Yields (perform c q m w s) (Sets n s.bound w) := by
  have hfree (hbound : s.bound = []) : Yields (perform c q m w s) (Sets n s.bound w) := by
    intro σ v σ' hv
    exact ⟨leaves_perform w hs σ v σ' hv, fun hn => by simp [hbound] at hn⟩
  cases s with
  | name line id use =>
    cases use with
    | load => exact hfree rfl
    | store => exact yields_pure (sets_bind id none w)
    | delete => exact yields_pure (sets_bind id none w)
  | member position line value attr use updates => exact hfree rfl
  | call line callee => exact hfree rfl
  | assign names value => exact yields_bind fun b => yields_pure (sets_foldl_bind names _ w)
  | hinted name hint value => exact yields_bind fun b => yields_pure (sets_bind name _ w)
  | bindOther name => exact yields_pure (sets_bind name none w)
  | moduleImport name target => exact yields_pure (sets_bind name _ w)
  | nameImport name level source target =>
    rw [perform]
    split
    · rename_i hempty
      exact yields_pure ⟨.of_eq rfl rfl, fun _ hw => absurd (List.isEmpty_iff.mp hempty) hw⟩
    · exact yields_bind fun b => yields_pure (sets_bind name _ w)
  | caught name type =>
    cases type <;> exact yields_bind fun b => yields_pure (sets_bind name _ w)
  | openClass name position => cases hs
  | openFunction name f => cases hs
  | openScope names => cases hs
  | closeClass => cases hs
  | closeScope => cases hs

/-- A step that opens a scope binds its names around it and within it. -/
theorem sets_opening (w : Walk) {o : Step} (ho : o.shift = .opens) :
    Yields (perform c q m w o) fun v => ∃ opened u, v.scopes = opened :: u.scopes ∧
      opened.kind = (o.frame n).kind ∧ (n ∈ o.opened ↔ (opened.bindings.find? n).isSome) ∧
      Sets n o.bound w u := by
  have hcovers {names : List String} {t : Table String Denotation} (h : Covers n names t) :
      n ∈ names ↔ (t.find? n).isSome := by
    rw [Covers] at h
    split at h
    · rename_i hn
      obtain ⟨b, hb, -⟩ := h
      simp [hn, hb]
    · rename_i hn
      simp [hn, h]
  cases o with
  | openClass name position =>
    exact yields_pure ⟨⟨.classBody, []⟩, _, rfl, rfl, hcovers (covers_nil n), sets_bind name _ w⟩
  | openFunction name f =>
    refine (covers_bindParameters n c q m w f).bind fun t ht => yields_pure ?_
    exact ⟨⟨.function, t⟩, _, rfl, rfl, hcovers ht, sets_bind name none w⟩
  | openScope names =>
    refine yields_pure ⟨⟨.function, _⟩, w, rfl, rfl, ?_, .of_eq rfl rfl, by rintro ⟨⟩⟩
    exact hcovers ((covers_nil n).foldl_insert names)
  | _ => cases ho

/-- A step that closes a scope leaves those around it. -/
theorem scopes_closing (w : Walk) {s : Step} (hs : s.shift = .closes) :
    Yields (perform c q m w s) fun v => v.scopes = w.scopes.tail := by
  cases s with
  | closeClass => exact yields_pure rfl
  | closeScope => exact yields_pure rfl
  | _ => cases hs

end

/-- The scopes hold what they held before, and the innermost one what has been bound in it. -/
theorem holds_sets {made : Origin → Denotation → Prop} {n : String} {k : Nat}
    {names : List String} {ts : List Trail} {w u : Walk}
    (h : List.Forall₂ (Trail.Holds made n) ts w.scopes) (hsets : Sets n names w u)
    (hmade : ∀ b, n ∈ names → u.innermost? n = some b → made ⟨k, false⟩ b) :
    List.Forall₂ (Trail.Holds made n) (if n ∈ names then retrace ⟨k, false⟩ ts else ts)
      u.scopes := by
  obtain ⟨hleaves, hbound⟩ := hsets
  split
  · rename_i hn
    have hkinds := hleaves.kinds
    have htail := hleaves.tail
    rw [Walk.innermost?] at hbound hmade
    generalize w.scopes = ss at h hbound hkinds htail
    generalize u.scopes = ss' at hbound hmade hkinds htail
    cases h with
    | nil =>
      obtain rfl := List.map_eq_nil_iff.mp hkinds
      exact .nil
    | @cons t s ts ss ht hrest =>
      obtain ⟨s', rest, rfl, hkind, -⟩ := List.map_eq_cons_iff.mp hkinds
      obtain rfl : rest = ss := htail
      obtain ⟨b, hb⟩ := Option.isSome_iff_exists.mp (hbound hn (List.cons_ne_nil _ _))
      refine .cons ⟨hkind.trans ht.kind, ?_, nofun⟩ hrest
      rintro o ⟨⟩
      exact ⟨b, hb, hmade b hn hb⟩
  · rename_i hn
    have hview := hleaves.view n hn
    clear hleaves hbound hmade
    generalize w.scopes = ss at h hview
    generalize u.scopes = ss' at hview
    induction h generalizing ss' with
    | nil =>
      obtain rfl := List.map_eq_nil_iff.mp hview
      exact .nil
    | cons ht _ ih =>
      obtain ⟨s', rest, rfl, hs', hrest⟩ := List.map_eq_cons_iff.mp hview
      exact .cons (ht.of_view hs') (ih rest hrest)

/-! ### What steps made -/

/-- The names that a step binds, in the scope that it opens or in the one that it is taken in. -/
def Step.names (s : Step) (within : Bool) : List String := if within then s.opened else s.bound

/-- How far out that scope is after the step. -/
def Step.scopeIndex (s : Step) (within : Bool) : Nat :=
  if s.shift = .opens ∧ within = false then 1 else 0

/-- A walk takes some steps, from the answers `σ₀`, and the one that is meant comes to bind a name
to something. -/
inductive Made (c : Codebase) (q : Questions) (m : Nat) (σ₀ : Cache) (n : String)
    (steps : List Step) (o : Origin) (b : Denotation) : Prop
  | intro {front rest : List Step} {s : Step} {w v : Walk} {σ σ' : Cache} {scope : Scope}
      (hsteps : steps = front ++ s :: rest) (hbefore : front.length = o.before)
      (hfront : (front.foldlM (perform c q m) {}).run σ₀ = (.ok w, σ))
      (hstep : (perform c q m w s).run σ = (.ok v, σ'))
      (hn : n ∈ s.names o.within)
      (hscope : v.scopes[s.scopeIndex o.within]? = some scope)
      (hb : scope.bindings.find? n = some b)

section

variable {c : Codebase} {q : Questions} {m : Nat} {σ₀ : Cache} {n : String} {steps : List Step}

theorem Made.append {o : Origin} {b : Denotation} (h : Made c q m σ₀ n steps o b)
    (more : List Step) : Made c q m σ₀ n (steps ++ more) o b := by
  obtain ⟨rfl, hbefore, hfront, hstep, hn, hscope, hb⟩ := h
  exact .intro (by simp; rfl) hbefore hfront hstep hn hscope hb

/-- **The scopes of a walk hold what the steps of their trails made.** -/
theorem holds_trails {w : Walk} {σ : Cache}
    (h : (steps.foldlM (perform c q m) {}).run σ₀ = (.ok w, σ)) :
    List.Forall₂ (Trail.Holds (Made c q m σ₀ n steps) n) (trails n steps) w.scopes := by
  induction steps using List.reverseRecOn generalizing w σ with
  | nil =>
    obtain ⟨hw, -⟩ := Prod.mk.inj h
    obtain rfl := Except.ok.inj hw
    exact .nil
  | append_singleton steps s ih =>
    rw [List.foldlM_append, run_bind] at h
    rcases hfront : (steps.foldlM (perform c q m) {}).run σ₀ with ⟨e | u, σ₁⟩
    · rw [hfront] at h
      cases h
    rw [hfront] at h
    have hstep : (perform c q m u s).run σ₁ = (.ok w, σ) := by simpa using h
    have hbefore := (ih hfront).imp fun t scope ht => ht.mono fun o b hmade => hmade.append [s]
    -- what the step itself makes
    have hmade (within : Bool) {scope : Scope} {b : Denotation} (hn : n ∈ s.names within)
        (hscope : w.scopes[s.scopeIndex within]? = some scope)
        (hb : scope.bindings.find? n = some b) :
        Made c q m σ₀ n (steps ++ [s]) ⟨steps.length, within⟩ b :=
      .intro rfl rfl hfront hstep hn hscope hb
    rw [trails_concat, follow]
    cases hshift : s.shift with
    | stays =>
      refine holds_sets hbefore (sets_perform u hshift σ₁ w σ hstep) fun b hn hb => ?_
      obtain ⟨scope, hscope, hb⟩ := Option.bind_eq_some_iff.mp hb
      have hinnermost : w.scopes[s.scopeIndex false]? = some scope := by
        simpa [Step.scopeIndex, hshift, List.head?_eq_getElem?] using hscope
      exact hmade false hn hinnermost hb
    | opens =>
      obtain ⟨opened, v, hscopes, hkind, hopened, hsets⟩ := sets_opening u hshift σ₁ w σ hstep
      rw [hscopes]
      refine .cons ⟨hkind, ?_, ?_⟩ (holds_sets hbefore hsets fun b hn hb => ?_)
      · intro o ho
        split at ho
        · rename_i hn
          obtain ⟨b, hb⟩ := Option.isSome_iff_exists.mp (hopened.mp hn)
          obtain rfl := Option.some.inj ho
          exact ⟨b, hb, hmade true hn (by simp [Step.scopeIndex, hscopes]) hb⟩
        · cases ho
      · intro ho
        split at ho
        · cases ho
        · rename_i hn
          exact Option.not_isSome_iff_eq_none.mp (hopened.not.mp hn)
      · obtain ⟨scope, hscope, hb⟩ := Option.bind_eq_some_iff.mp hb
        have haround : w.scopes[s.scopeIndex false]? = some scope := by
          simpa [Step.scopeIndex, hshift, hscopes, List.head?_eq_getElem?] using hscope
        exact hmade false hn haround hb
    | closes =>
      rw [scopes_closing u hshift σ₁ w σ hstep]
      generalize trails n steps = ts at hbefore
      generalize u.scopes = ss at hbefore
      cases hbefore with
      | nil => exact .nil
      | cons _ hrest => exact hrest

/-- What is found under a name in the scopes of a walk was made by the step that it comes from, and
nothing is found where it comes from none. -/
theorem findInScopes_of_originOf {w : Walk} {σ : Cache}
    (h : (steps.foldlM (perform c q m) {}).run σ₀ = (.ok w, σ)) :
    match originOf n steps with
    | some o => ∃ b, findInScopes n w.scopes = some b ∧ Made c q m σ₀ n steps o b
    | none => findInScopes n w.scopes = none :=
  findInScopes_of_holds (holds_trails h)

end

end Concordance.Binding
