import Concordance.Proofs.Binding.Nesting
import Concordance.Proofs.Binding.Provenance
import Mathlib.Data.List.Forall2

/-!
# What is known of the scopes of a walk

What the steps of a walk tell about one name: which of the scopes that they opened hold the name,
and whether by an import or by something that is no class under its own name. That depends on the
steps alone, and it is so of the scopes of every walk that takes them, wherever it comes from and
whatever names are bound to. A load of the name records nothing where the innermost scope that holds
the name, of those seen from there, does not hold it by an import.

## Main definitions

* `Frame`, `enter`, `frames`: what is known of the scopes that are open
* `seen`: what a name is held by where it is seen from the innermost scope
* `Fits`: the scopes of a walk are as they are known to be

## Main results

* `fits_perform`, `fits_foldlM`: what is known of the scopes after steps
* `perform_load_of_seen`: loads that record nothing
-/

namespace Concordance.Binding

open Syntax

/-! ### What scopes hold a name by -/

/-- What a scope holds a name by. -/
inductive Hold where
  /-- Something that is no class under its own name. -/
  | value
  /-- An import, which may be of a class. -/
  | imported
deriving DecidableEq

/-- What is known of a scope with regard to one name: its kind, and what it holds the name by, if it
does. -/
structure Frame where
  kind : ScopeKind
  hold : Option Hold

/-- The names that a step binds in the innermost scope. -/
def Step.bound : Step → List String
  | .name _ _ .load => []
  | .name _ id _ => [id]
  | .assign ids _ => ids
  | .hinted id _ _ => [id]
  | .bindOther id => [id]
  | .moduleImport id _ => [id]
  | .nameImport id _ _ _ => [id]
  | .caught id _ => [id]
  | .openClass id _ => [id]
  | .openFunction id _ => [id]
  | _ => []

/-- What a step binds names to. -/
def Step.by : Step → Hold
  | .nameImport .. => .imported
  | _ => .value

/-- The names that a step binds in the scope that it opens. -/
def Step.opened : Step → List String
  | .openFunction _ f => f.parameters.map Prod.fst ++ f.leftOver
  | .openScope names => names
  | _ => []

/-- The scope that a step opens. -/
def Step.frame (n : String) (s : Step) : Frame where
  kind := match s with
    | .openClass .. => .classBody
    | _ => .function
  hold := if n ∈ s.opened then some .value else none

/-- The innermost scope holds a name by something. -/
def holdBy (k : Hold) : List Frame → List Frame
  | [] => []
  | f :: rest => { f with hold := some k } :: rest

/-- What is known of the scopes after a step. -/
def enter (n : String) (frames : List Frame) (s : Step) : List Frame :=
  let held := if n ∈ s.bound then holdBy s.by frames else frames
  match s.shift with
  | .stays => held
  | .opens => s.frame n :: held
  | .closes => frames.tail

/-- What is known of the scopes that some steps leave open, of those that they opened. -/
def frames (n : String) (steps : List Step) : List Frame := steps.foldl (enter n) []

/-- What a name is held by outside of the innermost scope. -/
def seenOutside : List Frame → Option Hold
  | [] => none
  | f :: rest =>
    match f.kind with
    | .classBody => seenOutside rest
    | .function => f.hold.or (seenOutside rest)

/-- What a name is held by where it is seen from the innermost scope. -/
def seen : List Frame → Option Hold
  | [] => none
  | f :: rest => f.hold.or (seenOutside rest)

/-! ### Scopes of a walk -/

/-- A scope is as it is known to be. -/
structure Frame.Fits (n : String) (f : Frame) (s : Scope) : Prop where
  kind : s.kind = f.kind
  value : f.hold = some .value → ∃ b, s.bindings.find? n = some b ∧ b.ownClass? = none
  free : f.hold = none → s.bindings.find? n = none

/-- The innermost scopes are as they are known to be. -/
def Fits (n : String) (frames : List Frame) (scopes : List Scope) : Prop :=
  ∃ inner outer, scopes = inner ++ outer ∧ List.Forall₂ (Frame.Fits n) frames inner

section

variable {n : String} {frames : List Frame} {scopes : List Scope}

theorem fits_nil (scopes : List Scope) : Fits n [] scopes := ⟨[], scopes, rfl, .nil⟩

theorem Fits.cons (h : Fits n frames scopes) {f : Frame} {s : Scope} (hs : f.Fits n s) :
    Fits n (f :: frames) (s :: scopes) := by
  obtain ⟨inner, outer, rfl, hinner⟩ := h
  exact ⟨s :: inner, outer, rfl, .cons hs hinner⟩

theorem Fits.tail (h : Fits n frames scopes) : Fits n frames.tail scopes.tail := by
  obtain ⟨inner, outer, rfl, hinner⟩ := h
  cases hinner with
  | nil => exact fits_nil _
  | cons _ hrest => exact ⟨_, outer, rfl, hrest⟩

theorem Fits.eq_nil (h : Fits n frames []) : frames = [] := by
  obtain ⟨inner, outer, hscopes, hinner⟩ := h
  obtain ⟨rfl, -⟩ := List.append_eq_nil_iff.mp hscopes.symm
  exact List.forall₂_nil_right_iff.mp hinner

theorem exists_findOutside {inner : List Scope} (h : List.Forall₂ (Frame.Fits n) frames inner)
    (outer : List Scope) (hseen : seenOutside frames = some .value) :
    ∃ b, findOutside n (inner ++ outer) = some b ∧ b.ownClass? = none := by
  induction h with
  | nil => cases hseen
  | @cons f s frames inner hs _ ih =>
    rw [seenOutside] at hseen
    rw [List.cons_append, findOutside, hs.kind]
    cases hkind : f.kind with
    | classBody =>
      rw [hkind] at hseen
      exact ih hseen
    | function =>
      rw [hkind] at hseen
      dsimp only
      cases hhold : f.hold with
      | none =>
        rw [hhold, Option.none_or] at hseen
        rw [hs.free hhold, Option.none_or]
        exact ih hseen
      | some k =>
        rw [hhold, Option.some_or] at hseen
        obtain ⟨b, hb, hclass⟩ := hs.value (hhold.trans hseen)
        exact ⟨b, by rw [hb, Option.some_or], hclass⟩

/-- What a name is held by decides how it is found. -/
theorem Fits.exists_findInScopes (h : Fits n frames scopes) (hseen : seen frames = some .value) :
    ∃ b, findInScopes n scopes = some b ∧ b.ownClass? = none := by
  obtain ⟨inner, outer, rfl, hinner⟩ := h
  cases hinner with
  | nil => cases hseen
  | @cons f s frames inner hs hrest =>
    rw [seen] at hseen
    rw [List.cons_append, findInScopes]
    cases hhold : f.hold with
    | none =>
      rw [hhold, Option.none_or] at hseen
      rw [hs.free hhold, Option.none_or]
      exact exists_findOutside hrest outer hseen
    | some k =>
      rw [hhold, Option.some_or] at hseen
      obtain ⟨b, hb, hclass⟩ := hs.value (hhold.trans hseen)
      exact ⟨b, by rw [hb, Option.some_or], hclass⟩

theorem holdBy_holdBy (k k' : Hold) (frames : List Frame) :
    holdBy k (holdBy k' frames) = holdBy k frames := by
  cases frames <;> rfl

/-- Binding a name in the innermost scope. -/
theorem Fits.bind {w : Walk} (h : Fits n frames w.scopes) (name : String) {b : Option Denotation}
    {k : Hold} (hk : n = name → k = .value → (b.getD .other).ownClass? = none) :
    Fits n (if n = name then holdBy k frames else frames) (w.bind name b).scopes := by
  obtain ⟨inner, outer, hscopes, hinner⟩ := h
  rw [Walk.bind]
  cases hinner with
  | nil =>
    have hframes : (if n = name then holdBy k [] else []) = ([] : List Frame) := by
      split <;> rfl
    rw [hframes]
    exact fits_nil _
  | @cons f s frames inner hs hrest =>
    rw [hscopes]
    by_cases hname : n = name
    · subst hname
      rw [if_pos rfl]
      refine ⟨_ :: inner, outer, rfl, .cons ⟨hs.kind, fun hhold => ?_, by rintro ⟨⟩⟩ hrest⟩
      exact ⟨_, by rw [Table.find?_insert, if_pos rfl], hk rfl (Option.some.inj hhold)⟩
    · rw [if_neg hname]
      have hfind : (s.bindings.insert name (b.getD .other)).find? n = s.bindings.find? n := by
        rw [Table.find?_insert, if_neg (Ne.symm hname)]
      refine ⟨_ :: inner, outer, rfl, .cons ⟨hs.kind, ?_, ?_⟩ hrest⟩
      · rw [hfind]
        exact hs.value
      · rw [hfind]
        exact hs.free

end

/-! ### Parameters -/

/-- Names that are bound in a table, each to something that is no class under its own name. -/
def Covers (n : String) (names : List String) (t : Table String Denotation) : Prop :=
  if n ∈ names then ∃ b, t.find? n = some b ∧ b.ownClass? = none else t.find? n = none

theorem ownClass?_of_map_asValue (b : Option Denotation) :
    ((b.map Denotation.asValue).getD .other).ownClass? = none := by
  cases b with
  | none => rfl
  | some b => exact b.ownClass?_asValue

section

variable {n : String} {names : List String} {t : Table String Denotation}

theorem covers_nil (n : String) : Covers n [] [] := rfl

theorem Covers.insert (h : Covers n names t) (name : String) {b : Denotation}
    (hb : b.ownClass? = none) : Covers n (names ++ [name]) (t.insert name b) := by
  by_cases hname : name = n
  · subst hname
    rw [Covers, if_pos (by simp)]
    exact ⟨b, by rw [Table.find?_insert, if_pos rfl], hb⟩
  · have hmem : n ∈ names ++ [name] ↔ n ∈ names := by simp [Ne.symm hname]
    simp only [Covers, hmem, Table.find?_insert, if_neg hname]
    exact h

theorem Covers.foldl_insert (h : Covers n names t) (more : List String) :
    Covers n (names ++ more) (more.foldl (fun t name => t.insert name .other) t) := by
  induction more generalizing names t with
  | nil => simpa using h
  | cons name rest ih => simpa using ih (h.insert name rfl)

theorem Covers.foldlM_insert {α : Type} {key : α → String} {f : α → Resolve (Option Denotation)}
    (h : Covers n names t) (l : List α) :
    Yields (l.foldlM (fun t p => do
        let b ← f p
        pure (t.insert (key p) ((b.map Denotation.asValue).getD .other))) t)
      (Covers n (names ++ l.map key)) := by
  induction l generalizing names t with
  | nil => exact yields_pure (by simpa using h)
  | cons p rest ih =>
    rw [List.foldlM_cons, bind_assoc]
    refine yields_bind fun b => ?_
    rw [pure_bind, List.map_cons]
    simpa using ih (h.insert (key p) (ownClass?_of_map_asValue b))

theorem Covers.fits {s : Step} {kind : ScopeKind} (h : Covers n s.opened t)
    (hkind : kind = (s.frame n).kind) : (s.frame n).Fits n ⟨kind, t⟩ := by
  rw [Covers] at h
  refine ⟨hkind, fun hhold => ?_, fun hhold => ?_⟩
  · by_cases hmem : n ∈ s.opened
    · rwa [if_pos hmem] at h
    · simp [Step.frame, hmem] at hhold
  · by_cases hmem : n ∈ s.opened
    · simp [Step.frame, hmem] at hhold
    · rwa [if_neg hmem] at h

theorem covers_bindParameters (n : String) (c : Codebase) (q : Questions) (m : Nat) (w : Walk)
    (f : Signature) :
    Yields (bindParameters c q m w f) (Covers n (f.parameters.map Prod.fst ++ f.leftOver)) := by
  rw [bindParameters]
  generalize (w.inClassBody && decide (f.receiver ≠ .plain)) = asReceiver
  refine Yields.bind (P := Covers n (f.parameters.map Prod.fst)) ?_ fun t ht =>
    yields_pure (ht.foldl_insert f.leftOver)
  cases asReceiver with
  | false => exact (covers_nil n).foldlM_insert f.parameters
  | true =>
    have hstart (receiver : Denotation) (hclass : receiver.ownClass? = none) :
        Covers n ((f.parameters.take 1).map Prod.fst)
          ((f.parameters.take 1).map fun p => (p.1, receiver)) := by
      cases f.parameters with
      | nil => exact covers_nil n
      | cons p rest => exact (covers_nil n).insert p.1 hclass
    rw [← List.take_append_drop 1 (f.parameters.map Prod.fst), ← List.map_take, ← List.map_drop]
    refine Covers.foldlM_insert (hstart _ ?_) (f.parameters.drop 1)
    split
    · rfl
    · split <;> rfl

end

/-! ### Steps of a walk -/

section

variable {c : Codebase} {q : Questions} {m : Nat} {w : Walk} {n : String} {known : List Frame}

theorem scopes_recordClass (k : Option ClassId) (line : Nat) (w : Walk) :
    (recordClass c k line w).scopes = w.scopes := by
  rw [recordClass]
  split <;> rfl

theorem scopes_recordMember (s : Symbol) (position : Position) (line : Nat) (attr : String)
    (use : Use) (updates : Bool) (w : Walk) :
    (recordMember c m s position line attr use updates w).scopes = w.scopes := by
  rw [recordMember]
  split
  · exact List.foldlRecOn _ _ (motive := fun v : Walk => v.scopes = w.scopes) rfl
      fun v hv a _ => hv
  · split <;> rfl
  · rfl

theorem scopes_meetMember (position : Position) (line : Nat) (value : Designator) (attr : String)
    (use : Use) (updates : Bool) :
    Yields (meetMember c q m w position line value attr use updates) fun v =>
      v.scopes = w.scopes := by
  refine yields_bind fun b => ?_
  cases b with
  | none => exact yields_pure rfl
  | some b =>
    dsimp only
    split
    · exact yields_pure (scopes_recordMember _ position line attr use updates w)
    · split
      · exact yields_bind fun b => yields_pure (scopes_recordClass _ line w)
      · exact yields_pure rfl

theorem scopes_meetCall (line : Nat) (callee : Designator) :
    Yields (meetCall c q m w line callee) fun v => v.scopes = w.scopes := by
  refine yields_bind fun b => ?_
  split
  · split
    · refine yields_pure ?_
      split <;> rfl
    · exact yields_pure rfl
  · exact yields_pure rfl

theorem Fits.bind_foldl (h : Fits n known w.scopes) (names : List String) {b : Option Denotation}
    (hb : (b.getD .other).ownClass? = none) :
    Fits n (if n ∈ names then holdBy .value known else known)
      (names.foldl (fun w name => w.bind name b) w).scopes := by
  induction names generalizing w known with
  | nil => exact h
  | cons name rest ih =>
    have hrest := ih (h.bind name (k := .value) fun _ _ => hb)
    have hheld : (if n ∈ rest then holdBy .value (if n = name then holdBy .value known else known)
        else if n = name then holdBy .value known else known) =
          if n ∈ name :: rest then holdBy .value known else known := by
      by_cases hname : n = name <;> by_cases hmem : n ∈ rest <;>
        simp [hname, hmem, holdBy_holdBy]
    rwa [hheld] at hrest

/-- What is known of the scopes after a step. Class statements for the name must not be those of
declared classes. -/
theorem fits_perform (h : Fits n known w.scopes) (s : Step)
    (hlocal : ∀ position, s = .openClass n position → declaredAt? c m position = none) :
    Yields (perform c q m w s) fun v => Fits n (enter n known s) v.scopes := by
  have hbind (name : String) {b : Option Denotation} {k : Hold}
      (hk : n = name → k = .value → (b.getD .other).ownClass? = none) :
      Fits n (if n ∈ [name] then holdBy k known else known) (w.bind name b).scopes := by
    simpa only [List.mem_singleton] using h.bind name hk
  have hsingle (name : String) {b : Option Denotation} (hb : (b.getD .other).ownClass? = none) :
      Fits n (if n ∈ [name] then holdBy .value known else known) (w.bind name b).scopes :=
    hbind name fun _ _ => hb
  cases s with
  | name line id use =>
    cases use with
    | load =>
      refine yields_bind fun b => yields_pure ?_
      rw [scopes_recordClass]
      exact h
    | store => exact yields_pure (hsingle id rfl)
    | delete => exact yields_pure (hsingle id rfl)
  | member position line value attr use updates =>
    intro s v s' hv
    rw [scopes_meetMember position line value attr use updates s v s' hv]
    exact h
  | call line callee =>
    intro s v s' hv
    rw [scopes_meetCall line callee s v s' hv]
    exact h
  | assign names value =>
    exact yields_bind fun b => yields_pure (h.bind_foldl names (ownClass?_of_map_asValue b))
  | hinted name hint value =>
    exact yields_bind fun b => yields_pure (hsingle name (ownClass?_of_map_asValue b))
  | bindOther name => exact yields_pure (hsingle name rfl)
  | moduleImport name target => exact yields_pure (hsingle name rfl)
  | nameImport name level source target =>
    rw [perform]
    split
    · rename_i hempty
      rw [List.isEmpty_iff.mp hempty] at h
      obtain rfl := h.eq_nil
      have hknown : enter n [] (.nameImport name level source target) = [] := by
        simp [enter, Step.shift, holdBy]
      rw [hknown]
      exact yields_pure (fits_nil _)
    · exact yields_bind fun b => yields_pure (hbind name (k := .imported) (by rintro _ ⟨⟩))
  | caught name type =>
    have hcalled (b : Option Denotation) :
        ((b.bind Denotation.called).getD .other).ownClass? = none := by
      cases b with
      | none => rfl
      | some b => cases b <;> rfl
    cases type with
    | none => exact yields_bind fun b => yields_pure (hsingle name (hcalled b))
    | some d => exact yields_bind fun b => yields_pure (hsingle name (hcalled b))
  | openClass name position =>
    refine yields_pure ((hbind name fun hname _ => ?_).cons ⟨rfl, by rintro ⟨⟩, fun _ => rfl⟩)
    rw [hlocal position (by rw [hname])]
    rfl
  | openFunction name f =>
    refine (covers_bindParameters n c q m w f).bind fun t ht => yields_pure ?_
    exact (hsingle name rfl).cons (ht.fits (s := .openFunction name f) rfl)
  | openScope names =>
    have hnames := (covers_nil n).foldl_insert names
    exact yields_pure (h.cons (hnames.fits (s := .openScope names) rfl))
  | closeClass => exact yields_pure h.tail
  | closeScope => exact yields_pure h.tail

/-- So it is after several steps. -/
theorem fits_foldlM (h : Fits n known w.scopes) {steps : List Step}
    (hlocal : ∀ position, .openClass n position ∈ steps → declaredAt? c m position = none) :
    Yields (steps.foldlM (perform c q m) w) fun v =>
      Fits n (steps.foldl (enter n) known) v.scopes := by
  induction steps generalizing w known with
  | nil => exact yields_pure h
  | cons s rest ih =>
    have hs := fits_perform (q := q) h s fun position hs =>
      hlocal position (hs ▸ List.mem_cons_self)
    rw [List.foldlM_cons]
    exact hs.bind fun v hv => ih hv fun position hmem =>
      hlocal position (List.mem_cons_of_mem s hmem)

/-- Where a name is held by a value, it is met without anything being recorded. -/
theorem perform_load_of_seen (h : Fits n known w.scopes) (hseen : seen known = some .value)
    (line : Nat) : perform c q m w (.name line n .load) = pure w := by
  obtain ⟨b, hb, hclass⟩ := h.exists_findInScopes hseen
  rw [perform, lookupIn, hb, pure_bind, Option.bind_some, hclass]
  rfl

end

end Concordance.Binding
