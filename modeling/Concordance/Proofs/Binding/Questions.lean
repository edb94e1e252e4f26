import Concordance.Binding.Resolution
import Mathlib.Control.Monad.Basic

/-!
# Questions and what they lead to

What is asked one level deeper is one of two kinds of question, about a name of a module or about a
member of a class. Everything in between, from the sources of a name to the parts of an expression,
only passes questions on and puts their answers together. So whatever two ways of answering have in
common that sequencing respects, all that is built on them has in common, too. This is proved once,
for any relation, and what there is to say about depth, about the answers kept and about cycles are
relations of that kind.

## Main definitions

* `Question`: a question, and `Questions.reply`, `Codebase.answer`: the answer to it
* `Codebase.Declares`, `Codebase.Asks`: the questions that a codebase leads to
* `Designator.asked`, `Hint.asked`: the names that an expression or a hint is resolved by
* `Hint.faults`, `Codebase.HasFault`: why hints cannot be read
* `Sequential`, `Congruence`: relations between pieces of work that sequencing respects

## Main results

* `run_bind`: how work goes on after work
* `Sequential.answer`, `Congruence.answer`: answers to related questions are related
-/

namespace Concordance.Binding

/-! ### Work after work -/

/-- Work after work starts from what the first one kept, unless that failed. -/
theorem run_bind {α β : Type} (x : Resolve α) (f : α → Resolve β) (s : Cache) :
    (x >>= f).run s =
      match x.run s with
      | (.ok a, s') => (f a).run s'
      | (.error e, s') => (.error e, s') := by
  show ExceptT.bindCont f (x.run s).1 (x.run s).2 = _
  rcases x.run s with ⟨_ | _, s'⟩ <;> rfl

/-- What two pieces of work have in common, for all kinds of results, where sequencing keeps it. -/
structure Sequential (R : ∀ ⦃α : Type⦄, Resolve α → Resolve α → Prop) : Prop where
  pure : ∀ {α : Type} (a : α), R (pure a) (pure a)
  bind : ∀ {α β : Type} {x y : Resolve α} {f g : α → Resolve β}, R x y → (∀ a, R (f a) (g a)) →
    R (x >>= f) (y >>= g)

/-- A failure for a text that cannot be read is related to itself. -/
def Throws (why : Illegible) (R : ∀ ⦃α : Type⦄, Resolve α → Resolve α → Prop) : Prop :=
  ∀ {α : Type}, R (throw (.unreadable why) : Resolve α) (throw (.unreadable why))

/-- What two pieces of work have in common even where both of them fail. -/
structure Congruence (R : ∀ ⦃α : Type⦄, Resolve α → Resolve α → Prop) : Prop
    extends Sequential R where
  throw : ∀ why, Throws why R

theorem Sequential.map {R : ∀ ⦃α : Type⦄, Resolve α → Resolve α → Prop} (h : Sequential R)
    {α β : Type} {x y : Resolve α} (hxy : R x y) (f : α → β) : R (f <$> x) (f <$> y) := by
  rw [map_eq_pure_bind, map_eq_pure_bind]
  exact h.bind hxy fun a => h.pure (f a)

/-! ### Questions -/

/-- What is asked one level deeper. -/
inductive Question where
  | ofName (m : Nat) (name : String)
  | ofMember (owner : ClassId) (attr : String) (aspect : Aspect)
deriving DecidableEq

/-- The reply to a question. -/
def Questions.reply (q : Questions) : Question → Resolve (Option Denotation)
  | .ofName m name => q.exported m name
  | .ofMember owner attr aspect => q.memberType owner attr aspect

namespace Codebase

/-- The answer to a question, from those to the questions that it leads to. -/
def answer (c : Codebase) (q : Questions) : Question → Resolve (Option Denotation)
  | .ofName m name => resolveExport c q m name
  | .ofMember owner attr aspect => resolveMemberType c q owner attr aspect

/-- A class declares a member that has something of which the type can be asked. -/
def Declares (c : Codebase) (owner : ClassId) (attr : String) (aspect : Aspect) : Prop :=
  ∃ s, c.ownMember? attr owner = some s ∧
    match aspect with
    | .result => s.kind = .method
    | .content => s.kind = .field ∨ s.kind = .property

/-- The questions that others can lead to: about any name, but only about declared members. -/
def Asks (c : Codebase) : Question → Prop
  | .ofName _ _ => True
  | .ofMember owner attr aspect => c.Declares owner attr aspect

/-- What is asked about a member is settled by its kind. -/
theorem Declares.aspect_eq {c : Codebase} {owner : ClassId} {attr : String}
    {aspect aspect' : Aspect} (h : c.Declares owner attr aspect)
    (h' : c.Declares owner attr aspect') : aspect = aspect' := by
  obtain ⟨s, hs, hkind⟩ := h
  obtain ⟨s', hs', hkind'⟩ := h'
  obtain rfl : s = s' := Option.some.inj (hs.symm.trans hs')
  cases aspect <;> cases aspect' <;> simp_all

/-- A member that a search finds is one that the class found with it declares. -/
theorem ownMember?_of_searchMember {c : Codebase} {name : String} {visited stack : List ClassId}
    {s : Symbol} {owner : ClassId} (h : c.searchMember name visited stack = some (s, owner)) :
    c.ownMember? name owner = some s := by
  induction visited, stack using searchMember.induct c name with
  | case1 visited => simp [searchMember] at h
  | case2 visited k stack hk ih =>
    rw [searchMember, if_pos hk] at h
    exact ih h
  | case3 visited k stack hk s' hs =>
    rw [searchMember, if_neg hk, hs] at h
    obtain ⟨rfl, rfl⟩ := Prod.mk.inj (Option.some.inj h)
    exact hs
  | case4 visited k stack hk hs ih =>
    rw [searchMember, if_neg hk, hs] at h
    exact ih h

theorem ownMember?_of_memberOn? {c : Codebase} {b : Denotation} {attr : String} {s : Symbol}
    {owner : ClassId} (h : c.memberOn? b attr = some (s, owner)) :
    c.ownMember? attr owner = some s := by
  cases b with
  | moduleNamed name => cases h
  | other => cases h
  | _ => exact ownMember?_of_searchMember h

end Codebase

theorem declares_of_methodOwner? {c : Codebase} {b : Option Denotation} {attr : String}
    {owner : ClassId} (h : methodOwner? c b attr = some owner) : c.Declares owner attr .result := by
  obtain ⟨⟨s, k⟩, hfound, hs⟩ := Option.bind_eq_some_iff.mp h
  obtain ⟨b, -, hb⟩ := Option.bind_eq_some_iff.mp hfound
  by_cases hkind : s.kind = .method
  · obtain rfl : k = owner := by simpa [hkind] using hs
    exact ⟨s, Codebase.ownMember?_of_memberOn? hb, hkind⟩
  · simp [hkind] at hs

/-! ### Asking -/

/-- Whether a question is being answered. -/
def Open.Has (asked : Open) : Question → Prop
  | .ofName m name => (m, name) ∈ asked.exports
  | .ofMember owner attr _ => (owner, attr) ∈ asked.members

instance (asked : Open) : (Q : Question) → Decidable (asked.Has Q)
  | .ofName m name => inferInstanceAs (Decidable ((m, name) ∈ asked.exports))
  | .ofMember owner attr _ => inferInstanceAs (Decidable ((owner, attr) ∈ asked.members))

/-- The questions that are being answered, with one more. -/
def Open.add (asked : Open) : Question → Open
  | .ofName m name => { asked with exports := (m, name) :: asked.exports }
  | .ofMember owner attr _ => { asked with members := (owner, attr) :: asked.members }

/-- The answer kept to a question. -/
def Question.kept? (Q : Question) (s : Cache) : Option (Option Denotation) :=
  match Q with
  | .ofName m name => s.find? (m, name)
  | .ofMember .. => none

/-- Keep the answer to a question, if it is one about a name. -/
def Question.keep (Q : Question) (found : Option Denotation) (s : Cache) : Cache :=
  match Q with
  | .ofName m name => s.insert (m, name) found
  | .ofMember .. => s

/-- A question is answered by what is kept, else not at all if it is open, else one level deeper. -/
theorem Codebase.run_reply (c : Codebase) (depth : Nat) (asked : Open) (Q : Question) (s : Cache) :
    ((c.questions (depth + 1) asked).reply Q).run s =
      match Q.kept? s with
      | some kept => (.ok kept, s)
      | none =>
        if asked.Has Q then (.ok none, s)
        else
          match (c.answer (c.questions depth (asked.add Q)) Q).run s with
          | (.ok found, s') => (.ok found, Q.keep found s')
          | (.error e, s') => (.error e, s') := by
  let answer := c.answer (c.questions depth (asked.add Q)) Q
  cases Q with
  | ofName m name =>
    show (askExport asked m name answer).run s = _
    rw [askExport, run_bind]
    show (match s.find? (m, name) with | some kept => _ | none => _ : Resolve _).run s = _
    cases hkept : s.find? (m, name) with
    | some kept => simp only [Question.kept?, hkept]; rfl
    | none =>
      simp only [Question.kept?, hkept]
      by_cases hopen : (m, name) ∈ asked.exports
      · rw [if_pos hopen, if_pos (show asked.Has (.ofName m name) from hopen)]
        rfl
      · rw [if_neg hopen, if_neg (show ¬ asked.Has (.ofName m name) from hopen), run_bind]
        change _ = match answer.run s with | (.ok found, s') => _ | (.error e, s') => _
        rcases answer.run s with ⟨_ | _, s'⟩ <;> rfl
  | ofMember owner attr aspect =>
    show (if (owner, attr) ∈ asked.members then pure none else answer).run s = _
    simp only [Question.kept?]
    by_cases hopen : (owner, attr) ∈ asked.members
    · rw [if_pos hopen, if_pos (show asked.Has (.ofMember owner attr aspect) from hopen)]
      rfl
    · rw [if_neg hopen, if_neg (show ¬ asked.Has (.ofMember owner attr aspect) from hopen)]
      change _ = match answer.run s with | (.ok found, s') => _ | (.error e, s') => _
      rcases answer.run s with ⟨_ | _, s'⟩ <;> rfl

/-! ### Hints that cannot be read -/

/-- Why a hint cannot be read: what is wrong with the texts that it holds. -/
def Hint.faults : Hint → List Illegible
  | unreadable why => [why]
  | either first second => first.faults ++ second.faults
  | typeOf h => h.faults
  | _ => []

/-- Why the hint of a source cannot be read, if it has one. -/
def Source.faults : Source → List Illegible
  | hinted h _ => h.faults
  | _ => []

/-- A hint on a name of a module or on a member of a class cannot be read, and why. -/
inductive Codebase.HasFault (c : Codebase) (why : Illegible) : Prop
  | source {m : Nat} {name : String} {sources : List Source} {s : Source}
    (hsources : (c.outline m).names.find? name = some sources) (hs : s ∈ sources)
    (hwhy : why ∈ s.faults)
  | member {owner : ClassId} {d : ClassDecl} {attr : String} {n : Syntax.Node}
    (hd : c.classDecl? owner = some d)
    (hn : d.returns.find? attr = some n ∨ d.annotations.find? attr = some n)
    (hwhy : why ∈ (Hint.ofNode n).faults)

/-! ### Names that are looked up -/

/-- The names that an expression is resolved by. The argument of a call counts for `type` alone. -/
def Designator.asked : Designator → List String
  | unknown => []
  | name id => [id]
  | member value _ => value.asked
  | call (name id) argument => id :: if id = "type" then argument.asked else []
  | call callee _ => callee.asked

/-- The names that a hint is resolved by. -/
def Hint.asked : Hint → List String
  | designator d => d.asked
  | either first second => first.asked ++ second.asked
  | typeOf h => h.asked
  | nothing => []
  | unreadable _ => []

/-! ### Related answers -/

section

variable {R : ∀ ⦃α : Type⦄, Resolve α → Resolve α → Prop} (hR : Sequential R) {q p : Questions}
  {name : String} (hq : ∀ m, R (q.exported m name) (p.exported m name))

include hR hq

theorem Sequential.exportedFrom (m : Option Nat) :
    R (q.exportedFrom m name) (p.exportedFrom m name) := by
  cases m with
  | none => exact hR.pure none
  | some m => exact hq m

/-- Names that are taken over from other modules lead to questions about the same name only. -/
theorem Sequential.firstExport (c : Codebase) (m : Nat) (targets : List String) :
    R (firstExport c q m name targets) (firstExport c p m name targets) := by
  induction targets with
  | nil => exact hR.pure none
  | cons target rest ih =>
    refine hR.bind (hR.exportedFrom hq _) fun found => ?_
    cases found with
    | some b => exact hR.pure _
    | none => exact ih

end

section

variable {R : ∀ ⦃α : Type⦄, Resolve α → Resolve α → Prop} (hR : Sequential R) {c : Codebase}
  {q p : Questions} (hq : ∀ Q, c.Asks Q → R (q.reply Q) (p.reply Q))

include hR hq

theorem Sequential.importFrom (project : Option String) (target name : String) :
    R (importFrom c q project target name) (importFrom c p project target name) := by
  refine hR.bind (hR.exportedFrom (fun m => hq (.ofName m name) trivial) _) fun found => ?_
  cases found <;> exact hR.pure _

theorem Sequential.memberOf (b : Denotation) (attr : String) :
    R (memberOf c q b attr) (memberOf c p b attr) := by
  unfold Binding.memberOf
  split
  · dsimp only
    split
    · exact hR.pure _
    · exact hR.exportedFrom (fun m => hq (.ofName m attr) trivial) _
  · split
    · exact hR.pure none
    · rename_i member owner hfound
      have hown := Codebase.ownMember?_of_memberOn? hfound
      cases hkind : member.kind with
      | type => exact hR.pure _
      | method => exact hR.pure none
      | field => exact hq (.ofMember owner attr .content) ⟨member, hown, .inl hkind⟩
      | property => exact hq (.ofMember owner attr .content) ⟨member, hown, .inr hkind⟩

theorem Sequential.memberOfOption (b : Option Denotation) (attr : String) :
    R (memberOfOption c q b attr) (memberOfOption c p b attr) := by
  cases b with
  | none => exact hR.pure none
  | some b => exact hR.memberOf hq b attr

/-- An expression depends on the names that it is resolved by, and on the class around only if
`super` is one of them. -/
theorem Sequential.resolve_of_asked {lookup l : Lookup} {e e' : Option ClassId} {d : Designator}
    (hlookup : ∀ id ∈ d.asked, R (lookup id) (l id)) (he : "super" ∈ d.asked → e = e') :
    R (resolve c q lookup e d) (resolve c p l e' d) := by
  induction d using resolve.induct with
  | case1 => exact hR.pure none
  | case2 id => exact hlookup id (List.mem_singleton_self id)
  | case3 value attr ih => exact hR.bind (ih hlookup he) fun b => hR.memberOfOption hq b attr
  | case4 id argument ih =>
    refine hR.bind (hlookup id List.mem_cons_self) fun found => ?_
    cases found with
    | some b => exact hR.pure _
    | none =>
      dsimp only
      split
      · rename_i hsuper
        rw [he (hsuper ▸ List.mem_cons_self)]
        exact hR.pure _
      · split
        · rename_i htype
          have hargument {n : String} (hn : n ∈ argument.asked) :
              n ∈ (Designator.call (.name id) argument).asked := by
            rw [Designator.asked, if_pos htype]
            exact List.mem_cons_of_mem id hn
          refine hR.bind (ih (fun n hn => hlookup n (hargument hn))
            fun hn => he (hargument hn)) fun b => ?_
          split <;> exact hR.pure _
        · exact hR.pure none
  | case5 value attr argument ih =>
    refine hR.bind (ih hlookup he) fun receiver => ?_
    cases howner : methodOwner? c receiver attr with
    | none => exact hR.bind (hR.memberOfOption hq receiver attr) fun b => hR.pure _
    | some owner => exact hq (.ofMember owner attr .result) (declares_of_methodOwner? howner)
  | case6 callee argument hname hmember ih =>
    rw [Designator.asked.eq_5 _ _ hname] at hlookup he
    rw [Binding.resolve.eq_6 _ _ _ _ _ _ hname hmember,
      Binding.resolve.eq_6 _ _ _ _ _ _ hname hmember]
    exact hR.bind (ih hlookup he) fun b => hR.pure _

theorem Sequential.resolve {lookup l : Lookup}
    (hlookup : ∀ id, R (lookup id) (l id)) (enclosing : Option ClassId) (d : Designator) :
    R (resolve c q lookup enclosing d) (resolve c p l enclosing d) :=
  hR.resolve_of_asked hq (fun id _ => hlookup id) fun _ => rfl

theorem Sequential.resolveHint_of_asked {lookup l : Lookup} {h : Hint}
    (hlookup : ∀ id ∈ h.asked, R (lookup id) (l id)) (hh : ∀ why ∈ h.faults, Throws why R) :
    R (resolveHint c q lookup h) (resolveHint c p l h) := by
  induction h with
  | nothing => exact hR.pure none
  | unreadable why => exact hh why List.mem_cons_self
  | designator d =>
    exact hR.bind (hR.resolve_of_asked hq hlookup fun _ => rfl) fun b => hR.pure _
  | either first second ih ih' =>
    have hfirst := ih (fun id hid => hlookup id (List.mem_append_left _ hid))
      fun why hwhy => hh why (List.mem_append_left _ hwhy)
    refine hR.bind hfirst fun found => ?_
    cases found with
    | none =>
      exact ih' (fun id hid => hlookup id (List.mem_append_right _ hid))
        fun why hwhy => hh why (List.mem_append_right _ hwhy)
    | some b => exact hR.pure _
  | typeOf h ih => exact hR.bind (ih hlookup hh) fun b => hR.pure _

theorem Sequential.resolveHint {lookup l : Lookup}
    (hlookup : ∀ id, R (lookup id) (l id)) {h : Hint} (hh : ∀ why ∈ h.faults, Throws why R) :
    R (resolveHint c q lookup h) (resolveHint c p l h) :=
  hR.resolveHint_of_asked hq (fun id _ => hlookup id) hh

theorem Sequential.resolveTyped_of_asked {lookup l : Lookup} (enclosing : Option ClassId)
    {hint : Hint} {value : Option Designator}
    (hlookup : ∀ id ∈ hint.asked ++ (value.map Designator.asked).getD [], R (lookup id) (l id))
    (hh : ∀ why ∈ hint.faults, Throws why R) :
    R (resolveTyped c q lookup enclosing hint value)
      (resolveTyped c p l enclosing hint value) := by
  have hhint := hR.resolveHint_of_asked hq
    (fun id hid => hlookup id (List.mem_append_left _ hid)) hh
  refine hR.bind hhint fun found => ?_
  cases found with
  | some b => exact hR.pure _
  | none =>
    cases value with
    | some d =>
      exact hR.resolve_of_asked hq (fun id hid => hlookup id (List.mem_append_right _ hid))
        fun _ => rfl
    | none => exact hR.pure none

theorem Sequential.resolveTyped {lookup l : Lookup}
    (hlookup : ∀ id, R (lookup id) (l id)) (enclosing : Option ClassId) {hint : Hint}
    (hh : ∀ why ∈ hint.faults, Throws why R) (value : Option Designator) :
    R (resolveTyped c q lookup enclosing hint value)
      (resolveTyped c p l enclosing hint value) :=
  hR.resolveTyped_of_asked hq enclosing (fun id _ => hlookup id) hh

theorem Sequential.resolveSource (m : Nat) {s : Source} (hs : ∀ why ∈ s.faults, Throws why R) :
    R (resolveSource c q m s) (resolveSource c p m s) := by
  have hlookup : ∀ id, R (q.exported m id) (p.exported m id) := fun id => hq (.ofName m id) trivial
  cases s with
  | classStatement k => exact hR.pure _
  | moduleImport name => exact hR.pure _
  | nameImport target name => exact hR.bind (hR.importFrom hq _ target name) fun b => hR.pure _
  | value d => exact hR.bind (hR.resolve hq hlookup none d) fun b => hR.pure _
  | hinted h value => exact hR.bind (hR.resolveTyped hq hlookup none hs value) fun b => hR.pure _
  | other => exact hR.pure _

theorem Sequential.firstInformative (m : Nat) {sources : List Source}
    (hs : ∀ s ∈ sources, ∀ why ∈ s.faults, Throws why R) :
    R (firstInformative c q m sources) (firstInformative c p m sources) := by
  induction sources with
  | nil => exact hR.pure _
  | cons s rest ih =>
    refine hR.bind (hR.resolveSource hq m (hs s List.mem_cons_self)) fun found => ?_
    have hrest := ih fun s' hs' => hs s' (List.mem_cons_of_mem s hs')
    split
    · exact hrest
    · exact hrest
    · exact hR.pure _

theorem Sequential.resolveExport (m : Nat) (name : String)
    (hc : ∀ why, c.HasFault why → Throws why R) :
    R (resolveExport c q m name) (resolveExport c p m name) := by
  unfold Binding.resolveExport
  split
  · rename_i sources hsources
    refine hR.map (hR.firstInformative hq m fun s hs why hwhy => hc why ?_) some
    exact .source hsources (List.mem_reverse.mp hs) hwhy
  · split
    · exact hR.pure none
    · exact hR.firstExport (fun m => hq (.ofName m name) trivial) c m _

theorem Sequential.resolveMemberType (owner : ClassId) (attr : String) (aspect : Aspect)
    (hc : ∀ why, c.HasFault why → Throws why R) :
    R (resolveMemberType c q owner attr aspect) (resolveMemberType c p owner attr aspect) := by
  have hlookup : ∀ id, R (q.exported owner.moduleIndex id) (p.exported owner.moduleIndex id) :=
    fun id => hq (.ofName owner.moduleIndex id) trivial
  unfold Binding.resolveMemberType
  split
  · exact hR.pure none
  · rename_i d hd
    have hhint : ∀ n, (d.returns.find? attr = some n ∨ d.annotations.find? attr = some n) →
        ∀ why ∈ (Hint.ofNode n).faults, Throws why R := fun n hn why hwhy =>
      hc why (.member hd hn hwhy)
    cases aspect <;> dsimp only
    · split
      · rename_i n hn
        exact hR.resolveHint hq hlookup (hhint n (.inl hn))
      · exact hR.pure none
    · split
      · rename_i n hn
        exact hR.resolveHint hq hlookup (hhint n (.inr hn))
      · split
        · exact hR.resolve hq hlookup none _
        · exact hR.pure none

/-- **Answers to related questions are related**, if failures for hints that cannot be read are. -/
theorem Sequential.answer (Q : Question) (hc : ∀ why, c.HasFault why → Throws why R) :
    R (c.answer q Q) (c.answer p Q) := by
  cases Q with
  | ofName m name => exact hR.resolveExport hq m name hc
  | ofMember owner attr aspect => exact hR.resolveMemberType hq owner attr aspect hc

end

section

variable {R : ∀ ⦃α : Type⦄, Resolve α → Resolve α → Prop} (hR : Congruence R) {c : Codebase}
  {q p : Questions} (hq : ∀ Q, c.Asks Q → R (q.reply Q) (p.reply Q))

include hR hq

theorem Congruence.resolveHint {lookup l : Lookup}
    (hlookup : ∀ id, R (lookup id) (l id)) (h : Hint) :
    R (resolveHint c q lookup h) (resolveHint c p l h) :=
  hR.toSequential.resolveHint hq hlookup fun why _ => hR.throw why

/-- **Answers to related questions are related.** -/
theorem Congruence.answer (Q : Question) : R (c.answer q Q) (c.answer p Q) :=
  hR.toSequential.answer hq Q fun why _ => hR.throw why

end

end Concordance.Binding
