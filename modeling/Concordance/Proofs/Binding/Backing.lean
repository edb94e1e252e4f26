import Concordance.Binding.References
import Concordance.Proofs.Binding.History

/-!
# Bindings are of declared classes

A binding names a class by its module and place, and whatever is done with the class looks its
declaration up. That there is one is an invariant of all the work there is: class statements of a
module are declared with it, the classes that a class finds within it are so too, and everything
else passes on what it was given, by expressions, hints, imports, parameters and scopes. The answers
kept and the base classes found are part of that invariant, since later work begins with them.

## Main definitions

* `Codebase.Backs`: the class of a binding is declared
* `Codebase.Coherent`: the tables of a codebase agree with each other
* `Finds`: work that keeps only backed answers, and what it ends with

## Main results

* `finds_answer`, `finds_ask`: questions are answered by what is backed
* `finds_perform`: steps of a walk keep the scopes and the classes around backed
-/

namespace Concordance.Binding

open Syntax

/-! ### Backed bindings -/

namespace Codebase

variable (c : Codebase)

/-- A class is declared. -/
def Has (k : ClassId) : Prop := (c.classDecl? k).isSome

/-- If a binding is of a class, that class is declared. -/
def Backs (b : Denotation) : Prop := ∀ k ∈ b.class?, c.Has k

/-- If something is found, it is backed. -/
def BacksFound (found : Option Denotation) : Prop := ∀ b ∈ found, c.Backs b

/-- All bindings kept as answers are backed. -/
def BacksKept (s : Cache) : Prop :=
  ∀ m name found, s.find? (m, name) = some found → c.BacksFound found

/-- All bindings in a table are backed. -/
def BacksTable (t : Table String Denotation) : Prop := ∀ name b, t.find? name = some b → c.Backs b

/-- All base classes that have been found are declared. -/
def BacksBases : Prop := ∀ k, ∀ b ∈ c.basesOf k, c.Has b

/-- The tables of a codebase agree: class statements of modules are declared, a class that finds a
type among its members finds it among the classes within it, and these are declared. -/
structure Coherent : Prop where
  statements : ∀ m name sources, (c.outline m).names.find? name = some sources →
    ∀ k, .classStatement k ∈ sources → c.Has k
  types : ∀ k d name s, c.classDecl? k = some d → d.ownMember? name = some s → s.kind = .type →
    ∃ p, d.nested.find? name = some (p, s)
  nested : ∀ k d name p s, c.classDecl? k = some d → d.nested.find? name = some (p, s) →
    c.Has ⟨k.moduleIndex, p⟩

variable {c}

/-- Base classes are no part of it. -/
theorem Coherent.withBases (hc : c.Coherent) (bases : Table ClassId (List ClassId)) :
    Coherent { c with bases } :=
  ⟨hc.statements, hc.types, hc.nested⟩

theorem Has.exists_module {k : ClassId} (h : c.Has k) :
    ∃ d, c.modules[k.moduleIndex]? = some d := by
  obtain ⟨d, hd⟩ := Option.isSome_iff_exists.mp h
  exact (Option.bind_eq_some_iff.mp hd).imp fun _ => And.left

theorem has_of_ownMember? {k : ClassId} {name : String} {s : Symbol}
    (h : c.ownMember? name k = some s) : c.Has k := by
  obtain ⟨d, hd, -⟩ := Option.bind_eq_some_iff.mp h
  exact Option.isSome_iff_exists.mpr ⟨d, hd⟩

/-- The class in which a member is found is declared. -/
theorem has_of_memberOn? {b : Denotation} {attr : String} {s : Symbol} {owner : ClassId}
    (h : c.memberOn? b attr = some (s, owner)) : c.Has owner :=
  has_of_ownMember? (ownMember?_of_memberOn? h)

/-- A type that is found as a member is found again among the classes within its owner. -/
theorem Coherent.exists_nested (hc : c.Coherent) {b : Denotation} {attr : String} {s : Symbol}
    {owner : ClassId} (h : c.memberOn? b attr = some (s, owner)) (hkind : s.kind = .type) :
    ∃ d p, c.classDecl? owner = some d ∧ d.nested.find? attr = some (p, s) ∧
      c.Has ⟨owner.moduleIndex, p⟩ := by
  obtain ⟨d, hd, hown⟩ := Option.bind_eq_some_iff.mp (ownMember?_of_memberOn? h)
  obtain ⟨p, hp⟩ := hc.types owner d attr s hd hown hkind
  exact ⟨d, p, hd, hp, hc.nested owner d attr p s hd hp⟩

@[simp] theorem backs_other : c.Backs .other := nofun

@[simp] theorem backs_moduleNamed (name : String) : c.Backs (.moduleNamed name) := nofun

@[simp] theorem backs_classObject (k : ClassId) (aliased : Bool) :
    c.Backs (.classObject k aliased) ↔ c.Has k := by
  simp [Backs, Denotation.class?]

@[simp] theorem backs_instanceOf (k : ClassId) : c.Backs (.instanceOf k) ↔ c.Has k := by
  simp [Backs, Denotation.class?]

@[simp] theorem backs_basesOf (k : ClassId) : c.Backs (.basesOf k) ↔ c.Has k := by
  simp [Backs, Denotation.class?]

theorem Backs.asValue {b : Denotation} (h : c.Backs b) : c.Backs b.asValue := by
  cases b with
  | classObject k aliased => exact (backs_classObject k true).mpr ((backs_classObject k _).mp h)
  | _ => exact h

@[simp] theorem backsFound_none : c.BacksFound none := nofun

@[simp] theorem backsFound_some (b : Denotation) : c.BacksFound (some b) ↔ c.Backs b := by
  simp [BacksFound]

theorem Backs.called {b : Denotation} (h : c.Backs b) : c.BacksFound b.called := by
  cases b with
  | classObject k aliased => simpa [ Denotation.called] using h
  | _ => exact backsFound_none

theorem BacksFound.asValue {found : Option Denotation} (h : c.BacksFound found) :
    c.BacksFound (found.map Denotation.asValue) := by
  cases found with
  | none => exact backsFound_none
  | some b => exact (backsFound_some _).mpr ((backsFound_some b).mp h).asValue

theorem BacksFound.called {found : Option Denotation} (h : c.BacksFound found) :
    c.BacksFound (found.bind Denotation.called) := by
  cases found with
  | none => exact backsFound_none
  | some b => exact ((backsFound_some b).mp h).called

theorem BacksFound.getD {found : Option Denotation} (h : c.BacksFound found) :
    c.Backs (found.getD .other) := by
  cases found with
  | none => exact backs_other
  | some b => exact (backsFound_some b).mp h

theorem backsTable_nil : c.BacksTable [] := by
  rintro name b ⟨⟩

theorem BacksTable.insert {t : Table String Denotation} (h : c.BacksTable t) (name : String)
    {b : Denotation} (hb : c.Backs b) : c.BacksTable (t.insert name b) := by
  intro name' b' hfind
  rw [Table.find?_insert] at hfind
  split at hfind
  · cases hfind
    exact hb
  · exact h name' b' hfind

theorem BacksTable.foldl_insert_other {t : Table String Denotation} (h : c.BacksTable t)
    (names : List String) :
    c.BacksTable (names.foldl (fun t name => t.insert name .other) t) :=
  List.foldlRecOn names _ (motive := c.BacksTable) h fun _ ht name _ => ht.insert name backs_other

theorem BacksKept.keep {s : Cache} (h : c.BacksKept s) (Q : Question) {found : Option Denotation}
    (hfound : c.BacksFound found) : c.BacksKept (Q.keep found s) := by
  cases Q with
  | ofMember owner attr aspect => exact h
  | ofName m name =>
    intro m' name' found' hfind
    rw [Question.keep, Table.find?_insert] at hfind
    split at hfind
    · cases hfind
      exact hfound
    · exact h m' name' found' hfind

end Codebase

/-! ### Work that finds what is backed -/

/-- Where all answers kept are backed, work keeps none but such, and what it ends with has a
property. -/
def Finds {α : Type} (c : Codebase) (P : α → Prop) (x : Resolve α) : Prop :=
  ∀ s, c.BacksKept s → c.BacksKept (x.run s).2 ∧ ∀ a, (x.run s).1 = .ok a → P a

section

variable {c : Codebase} {α β : Type} {P : α → Prop} {P' : β → Prop}

theorem finds_pure {a : α} (h : P a) : Finds c P (pure a) := by
  refine fun s hs => ⟨hs, ?_⟩
  rintro _ ⟨⟩
  exact h

theorem finds_throw (f : Fault) : Finds c P (throw f : Resolve α) := fun _ hs => ⟨hs, nofun⟩

theorem Finds.bind {x : Resolve α} {f : α → Resolve β} (hx : Finds c P x)
    (hf : ∀ a, P a → Finds c P' (f a)) : Finds c P' (x >>= f) := by
  intro s hs
  obtain ⟨hkept, hfound⟩ := hx s hs
  rw [run_bind]
  generalize x.run s = ran at hkept hfound ⊢
  obtain ⟨e | a, s'⟩ := ran
  · exact ⟨hkept, nofun⟩
  · exact hf a (hfound a rfl) s' hkept

theorem Finds.foldlM {f : β → α → Resolve β} {l : List α}
    (hf : ∀ b, ∀ a ∈ l, P' b → Finds c P' (f b a)) {b : β} (h : P' b) :
    Finds c P' (l.foldlM f b) := by
  induction l generalizing b with
  | nil => exact finds_pure h
  | cons a l ih =>
    rw [List.foldlM_cons]
    exact (hf b a List.mem_cons_self h).bind fun b' hb' =>
      ih (fun b a' ha' => hf b a' (List.mem_cons_of_mem a ha')) hb'

end

/-! ### Expressions and hints -/

section

variable {c : Codebase} {q : Questions} (hq : ∀ Q, Finds c c.BacksFound (q.reply Q))

include hq

theorem finds_exportedFrom (m : Option Nat) (name : String) :
    Finds c c.BacksFound (q.exportedFrom m name) := by
  cases m with
  | none => exact finds_pure Codebase.backsFound_none
  | some m => exact hq (.ofName m name)

theorem finds_importFrom (project : Option String) (target name : String) :
    Finds c c.Backs (importFrom c q project target name) := by
  refine (finds_exportedFrom hq _ name).bind fun found hfound => ?_
  cases found with
  | some b => exact finds_pure ((Codebase.backsFound_some b).mp hfound)
  | none =>
    refine finds_pure ?_
    split
    · exact Codebase.backs_moduleNamed _
    · exact Codebase.backs_other

variable (hc : c.Coherent)

include hc

theorem finds_memberOf (b : Denotation) (attr : String) :
    Finds c c.BacksFound (memberOf c q b attr) := by
  unfold memberOf
  split
  · dsimp only
    split
    · exact finds_pure (by simp)
    · exact finds_exportedFrom hq _ attr
  · split
    · exact finds_pure Codebase.backsFound_none
    · rename_i member owner hfound
      cases hkind : member.kind with
      | type =>
        obtain ⟨d, p, hd, hp, hhas⟩ := hc.exists_nested hfound hkind
        exact finds_pure (by simpa [hd, hp] using hhas)
      | method => exact finds_pure Codebase.backsFound_none
      | field => exact hq (.ofMember owner attr .content)
      | property => exact hq (.ofMember owner attr .content)

theorem finds_memberOfOption (b : Option Denotation) (attr : String) :
    Finds c c.BacksFound (memberOfOption c q b attr) := by
  cases b with
  | none => exact finds_pure Codebase.backsFound_none
  | some b => exact finds_memberOf hq hc b attr

variable {lookup : Lookup} (hlookup : ∀ id, Finds c c.BacksFound (lookup id))

include hlookup

theorem finds_resolve {enclosing : Option ClassId} (henclosing : ∀ k ∈ enclosing, c.Has k)
    (d : Designator) : Finds c c.BacksFound (resolve c q lookup enclosing d) := by
  induction d using resolve.induct with
  | case1 => exact finds_pure Codebase.backsFound_none
  | case2 id => exact hlookup id
  | case3 value attr ih => exact ih.bind fun b _ => finds_memberOfOption hq hc b attr
  | case4 id argument ih =>
    refine (hlookup id).bind fun found hfound => ?_
    cases found with
    | some b => exact finds_pure ((Codebase.backsFound_some b).mp hfound).called
    | none =>
      dsimp only
      split
      · refine finds_pure fun b hb => ?_
        obtain ⟨k, hk, rfl⟩ := Option.map_eq_some_iff.mp hb
        exact (Codebase.backs_basesOf k).mpr (henclosing k hk)
      · split
        · refine ih.bind fun b hb => ?_
          split
          · exact finds_pure (by simpa using hb)
          · exact finds_pure Codebase.backsFound_none
        · exact finds_pure Codebase.backsFound_none
  | case5 value attr argument ih =>
    refine ih.bind fun receiver _ => ?_
    cases methodOwner? c receiver attr with
    | none => exact (finds_memberOfOption hq hc receiver attr).bind fun b hb => finds_pure hb.called
    | some owner => exact hq (.ofMember owner attr .result)
  | case6 callee argument hname hmember ih =>
    rw [resolve.eq_6 _ _ _ _ _ _ hname hmember]
    exact ih.bind fun b hb => finds_pure hb.called

theorem finds_resolveHint (h : Hint) : Finds c c.BacksFound (resolveHint c q lookup h) := by
  induction h with
  | nothing => exact finds_pure Codebase.backsFound_none
  | unreadable why => exact finds_throw _
  | designator d =>
    exact (finds_resolve hq hc hlookup (by simp) d).bind fun b hb => finds_pure hb.called
  | either first second ih ih' =>
    refine ih.bind fun found hfound => ?_
    cases found with
    | some b => exact finds_pure hfound
    | none => exact ih'
  | typeOf h ih =>
    refine ih.bind fun found hfound => finds_pure fun b hb => ?_
    obtain ⟨k, hk, rfl⟩ := Option.map_eq_some_iff.mp hb
    obtain ⟨b, hb, hclass⟩ := Option.bind_eq_some_iff.mp hk
    exact (Codebase.backs_classObject k false).mpr (hfound b hb k hclass)

theorem finds_resolveTyped {enclosing : Option ClassId} (henclosing : ∀ k ∈ enclosing, c.Has k)
    (hint : Hint) (value : Option Designator) :
    Finds c c.BacksFound (resolveTyped c q lookup enclosing hint value) := by
  refine (finds_resolveHint hq hc hlookup hint).bind fun found hfound => ?_
  cases found with
  | some b => exact finds_pure hfound
  | none =>
    cases value with
    | some d => exact finds_resolve hq hc hlookup henclosing d
    | none => exact finds_pure Codebase.backsFound_none

end

/-! ### Questions -/

section

variable {c : Codebase} {q : Questions} (hq : ∀ Q, Finds c c.BacksFound (q.reply Q))
  (hc : c.Coherent)

include hq

theorem finds_firstExport (m : Nat) (name : String) (targets : List String) :
    Finds c c.BacksFound (firstExport c q m name targets) := by
  induction targets with
  | nil => exact finds_pure Codebase.backsFound_none
  | cons target rest ih =>
    refine (finds_exportedFrom hq _ name).bind fun found hfound => ?_
    cases found with
    | some b => exact finds_pure hfound
    | none => exact ih

include hc

theorem finds_resolveSource (m : Nat) {source : Source}
    (hsource : ∀ k, source = .classStatement k → c.Has k) :
    Finds c c.BacksFound (resolveSource c q m source) := by
  have hlookup : ∀ id, Finds c c.BacksFound (q.exported m id) := fun id => hq (.ofName m id)
  cases source with
  | classStatement k => exact finds_pure (by simpa using hsource k rfl)
  | moduleImport name => exact finds_pure (by simp)
  | nameImport target name =>
    exact (finds_importFrom hq _ target name).bind fun b hb => finds_pure (by simpa using hb)
  | value d =>
    exact (finds_resolve hq hc hlookup (by simp) d).bind fun b hb => finds_pure hb.asValue
  | hinted h value =>
    exact (finds_resolveTyped hq hc hlookup (by simp) h value).bind fun b hb =>
      finds_pure hb.asValue
  | other => exact finds_pure (by simp)

theorem finds_firstInformative (m : Nat) {sources : List Source}
    (hsources : ∀ k, .classStatement k ∈ sources → c.Has k) :
    Finds c c.Backs (firstInformative c q m sources) := by
  induction sources with
  | nil => exact finds_pure Codebase.backs_other
  | cons source rest ih =>
    have hrest := ih fun k hk => hsources k (List.mem_cons_of_mem source hk)
    have hfirst : Finds c c.BacksFound (resolveSource c q m source) :=
      finds_resolveSource hq hc m fun k hk => hsources k (hk ▸ List.mem_cons_self)
    refine hfirst.bind fun found hfound => ?_
    split
    · exact hrest
    · exact hrest
    · exact finds_pure ((Codebase.backsFound_some _).mp hfound)

theorem finds_resolveExport (m : Nat) (name : String) :
    Finds c c.BacksFound (resolveExport c q m name) := by
  unfold resolveExport
  split
  · rename_i sources hsources
    rw [map_eq_pure_bind]
    refine (finds_firstInformative hq hc m fun k hk => ?_).bind fun b hb =>
      finds_pure ((Codebase.backsFound_some b).mpr hb)
    exact hc.statements m name sources hsources k (List.mem_reverse.mp hk)
  · split
    · exact finds_pure Codebase.backsFound_none
    · exact finds_firstExport hq m name _

theorem finds_resolveMemberType (owner : ClassId) (attr : String) (aspect : Aspect) :
    Finds c c.BacksFound (resolveMemberType c q owner attr aspect) := by
  have hlookup : ∀ id, Finds c c.BacksFound (q.exported owner.moduleIndex id) := fun id =>
    hq (.ofName owner.moduleIndex id)
  unfold resolveMemberType
  split
  · exact finds_pure Codebase.backsFound_none
  · cases aspect <;> dsimp only
    · split
      · exact finds_resolveHint hq hc hlookup _
      · exact finds_pure Codebase.backsFound_none
    · split
      · exact finds_resolveHint hq hc hlookup _
      · split
        · exact finds_resolve hq hc hlookup (by simp) _
        · exact finds_pure Codebase.backsFound_none

/-- Where the questions that it leads to are answered by what is backed, a question is. -/
theorem finds_answer (Q : Question) : Finds c c.BacksFound (c.answer q Q) := by
  cases Q with
  | ofName m name => exact finds_resolveExport hq hc m name
  | ofMember owner attr aspect => exact finds_resolveMemberType hq hc owner attr aspect

end

namespace Codebase

variable {c : Codebase} (hc : c.Coherent)

include hc

/-- **Questions are answered by what is backed**, at any depth and whatever questions are open. -/
theorem finds_reply (depth : Nat) (asked : Open) (Q : Question) :
    Finds c c.BacksFound ((c.questions depth asked).reply Q) := by
  induction depth generalizing asked Q with
  | zero =>
    cases Q <;> exact finds_throw _
  | succ depth ih =>
    intro s hs
    rw [run_reply]
    cases hkept : Q.kept? s with
    | some kept =>
      refine ⟨hs, ?_⟩
      rintro _ ⟨⟩
      cases Q with
      | ofName m name => exact hs m name kept hkept
      | ofMember owner attr aspect => cases hkept
    | none =>
      dsimp only
      split
      · refine ⟨hs, ?_⟩
        rintro _ ⟨⟩
        exact backsFound_none
      · obtain ⟨hbacked, hfound⟩ := finds_answer (ih (asked.add Q)) hc Q s hs
        generalize (c.answer (c.questions depth (asked.add Q)) Q).run s = ran at hbacked hfound ⊢
        obtain ⟨e | found, s'⟩ := ran
        · exact ⟨hbacked, nofun⟩
        · refine ⟨hbacked.keep Q (hfound found rfl), ?_⟩
          rintro _ ⟨⟩
          exact hfound found rfl

theorem finds_ask (Q : Question) : Finds c c.BacksFound (c.ask.reply Q) :=
  finds_reply hc c.depth {} Q

end Codebase

/-! ### Walks -/

/-- What the open scopes bind is backed, and the classes around are declared. -/
structure Walk.Backed (c : Codebase) (w : Walk) : Prop where
  scopes : ∀ s ∈ w.scopes, c.BacksTable s.bindings
  classes : ∀ k, some k ∈ w.classes → c.Has k

section

variable {c : Codebase} {w : Walk}

theorem backs_of_findOutside {scopes : List Scope} (h : ∀ s ∈ scopes, c.BacksTable s.bindings)
    {name : String} {b : Denotation} (hb : findOutside name scopes = some b) : c.Backs b := by
  induction scopes with
  | nil => cases hb
  | cons s rest ih =>
    obtain ⟨hs, hrest⟩ := List.forall_mem_cons.mp h
    rw [findOutside] at hb
    split at hb
    · exact ih hrest hb
    · rcases Option.or_eq_some_iff.mp hb with hb | ⟨-, hb⟩
      · exact hs name b hb
      · exact ih hrest hb

theorem backs_of_findInScopes {scopes : List Scope} (h : ∀ s ∈ scopes, c.BacksTable s.bindings)
    {name : String} {b : Denotation} (hb : findInScopes name scopes = some b) : c.Backs b := by
  cases scopes with
  | nil => cases hb
  | cons s rest =>
    obtain ⟨hs, hrest⟩ := List.forall_mem_cons.mp h
    rcases Option.or_eq_some_iff.mp hb with hb | ⟨-, hb⟩
    · exact hs name b hb
    · exact backs_of_findOutside hrest hb

namespace Walk.Backed

theorem empty (c : Codebase) : Backed c {} := ⟨nofun, nofun⟩

theorem enclosing (h : w.Backed c) : ∀ k ∈ w.enclosing, c.Has k := by
  intro k hk
  obtain ⟨k', hhead, rfl⟩ := Option.bind_eq_some_iff.mp hk
  exact h.classes k (List.mem_of_mem_head? hhead)

theorem bind (h : w.Backed c) (name : String) {b : Option Denotation} (hb : c.BacksFound b) :
    (w.bind name b).Backed c := by
  rw [Walk.bind]
  split
  · exact h
  · rename_i s rest hscopes
    have hall := h.scopes
    rw [hscopes] at hall
    obtain ⟨hs, hrest⟩ := List.forall_mem_cons.mp hall
    exact ⟨List.forall_mem_cons.mpr ⟨hs.insert name hb.getD, hrest⟩, h.classes⟩

theorem openScope (h : w.Backed c) {s : Scope} (hs : c.BacksTable s.bindings) :
    (w.openScope s).Backed c :=
  ⟨List.forall_mem_cons.mpr ⟨hs, h.scopes⟩, h.classes⟩

theorem closeScope (h : w.Backed c) : w.closeScope.Backed c :=
  ⟨fun s hs => h.scopes s (List.mem_of_mem_tail hs), h.classes⟩

/-- References that are noted change nothing. -/
theorem of_eq {w' : Walk} (h : w.Backed c) (hscopes : w'.scopes = w.scopes)
    (hclasses : w'.classes = w.classes) : w'.Backed c :=
  ⟨hscopes ▸ h.scopes, hclasses ▸ h.classes⟩

theorem record (h : w.Backed c) (s : Symbol) (line : Nat) : (w.record s line).Backed c :=
  h.of_eq rfl rfl

theorem recordClass (h : w.Backed c) (k : Option ClassId) (line : Nat) :
    (recordClass c k line w).Backed c := by
  rw [Binding.recordClass]
  split
  · exact h.record _ line
  · exact h

theorem recordMember (h : w.Backed c) (m : Nat) (s : Symbol) (position : Position) (line : Nat)
    (attr : String) (use : Use) (updates : Bool) :
    (recordMember c m s position line attr use updates w).Backed c := by
  rw [Binding.recordMember]
  split
  · exact List.foldlRecOn _ _ (motive := Walk.Backed c) h fun w hw a _ => hw.record a line
  · split
    · exact h
    · exact h.record s line
  · exact h.record s line

end Walk.Backed

variable {q : Questions} (hq : ∀ Q, Finds c c.BacksFound (q.reply Q)) (m : Nat) (h : w.Backed c)

include hq h

theorem finds_lookupIn (id : String) : Finds c c.BacksFound (lookupIn q m w id) := by
  unfold lookupIn
  split
  · rename_i b hb
    exact finds_pure ((Codebase.backsFound_some b).mpr (backs_of_findInScopes h.scopes hb))
  · exact hq (.ofName m id)

variable (hc : c.Coherent)

include hc

theorem finds_resolveIn (d : Designator) : Finds c c.BacksFound (resolveIn c q m w d) :=
  finds_resolve hq hc (finds_lookupIn hq m h) h.enclosing d

theorem finds_meetMember (position : Position) (line : Nat) (value : Designator) (attr : String)
    (use : Use) (updates : Bool) :
    Finds c (Walk.Backed c) (meetMember c q m w position line value attr use updates) := by
  refine (finds_resolveIn hq m h hc value).bind fun found _ => ?_
  cases found with
  | none => exact finds_pure h
  | some b =>
    dsimp only
    split
    · exact finds_pure (h.recordMember m _ position line attr use updates)
    · split
      · exact (finds_memberOf hq hc _ attr).bind fun found _ => finds_pure (h.recordClass _ line)
      · exact finds_pure h

theorem finds_meetCall (line : Nat) (callee : Designator) :
    Finds c (Walk.Backed c) (meetCall c q m w line callee) := by
  refine (finds_resolveIn hq m h hc callee).bind fun found _ => ?_
  split
  · split
    · refine finds_pure ?_
      split
      · exact h.record _ line
      · exact h
    · exact finds_pure h
  · exact finds_pure h

theorem finds_bindParameters (f : Signature) :
    Finds c c.BacksTable (bindParameters c q m w f) := by
  have hstart (names : List (String × Hint)) {b : Denotation} (hb : c.Backs b) :
      c.BacksTable (names.map fun p => (p.1, b)) := by
    intro name b' hfind
    obtain ⟨p, -, heq⟩ := List.mem_map.mp (Table.mem_of_find? hfind)
    obtain ⟨-, rfl⟩ := Prod.mk.inj heq
    exact hb
  rw [bindParameters]
  refine Finds.bind (P := c.BacksTable) (Finds.foldlM (fun t p _ ht => ?_) ?_) fun t ht =>
    finds_pure (ht.foldl_insert_other _)
  · exact (finds_resolveHint hq hc (finds_lookupIn hq m h) p.2).bind fun found hfound =>
      finds_pure (ht.insert p.1 hfound.asValue.getD)
  · split
    · refine hstart _ ?_
      split
      · exact Codebase.backs_other
      · rename_i k hk
        have hhas := h.enclosing k hk
        split
        · exact (Codebase.backs_classObject k true).mpr hhas
        · exact (Codebase.backs_instanceOf k).mpr hhas
    · exact Codebase.backsTable_nil

omit hc h in
theorem finds_importedName (level : Nat) (source : Option String) (target : String) :
    Finds c c.Backs (importedName c q m level source target) := by
  unfold importedName
  split
  · exact finds_pure Codebase.backs_other
  · split
    · exact finds_importFrom hq _ _ target
    · exact finds_pure Codebase.backs_other

/-- **A step of a walk keeps the scopes backed**, and the classes around declared. -/
theorem finds_perform (step : Step) : Finds c (Walk.Backed c) (perform c q m w step) := by
  cases step with
  | name line id use =>
    cases use with
    | load =>
      exact (finds_lookupIn hq m h id).bind fun found _ => finds_pure (h.recordClass _ line)
    | store => exact finds_pure (h.bind id Codebase.backsFound_none)
    | delete => exact finds_pure (h.bind id Codebase.backsFound_none)
  | member position line value attr use updates =>
    exact finds_meetMember hq m h hc position line value attr use updates
  | call line callee => exact finds_meetCall hq m h hc line callee
  | assign names value =>
    refine (finds_resolveIn hq m h hc value).bind fun found hfound => finds_pure ?_
    exact List.foldlRecOn _ _ (motive := Walk.Backed c) h fun w hw name _ =>
      hw.bind name hfound.asValue
  | hinted name hint value =>
    exact (finds_resolveTyped hq hc (finds_lookupIn hq m h) h.enclosing hint value).bind
      fun found hfound => finds_pure (h.bind name hfound.asValue)
  | bindOther name => exact finds_pure (h.bind name Codebase.backsFound_none)
  | moduleImport name target => exact finds_pure (h.bind name (by simp))
  | nameImport name level source target =>
    rw [perform]
    split
    · exact finds_pure h
    · exact (finds_importedName hq m level source target).bind fun b hb =>
        finds_pure (h.bind name ((Codebase.backsFound_some b).mpr hb))
  | caught name type =>
    have hcalled (found : Option Denotation) (hfound : c.BacksFound found) :
        Finds c (Walk.Backed c) (pure (w.bind name (found.bind Denotation.called))) :=
      finds_pure (h.bind name hfound.called)
    cases type with
    | none => exact Finds.bind (P := c.BacksFound) (finds_pure Codebase.backsFound_none) hcalled
    | some d => exact (finds_resolveIn hq m h hc d).bind hcalled
  | openClass name position =>
    have hdeclared : ∀ k ∈ declaredAt? c m position, c.Has k := by
      intro k hk
      obtain ⟨d, hd, rfl⟩ := Option.map_eq_some_iff.mp hk
      exact Option.isSome_iff_exists.mpr ⟨d, hd⟩
    have hbound : c.BacksFound ((declaredAt? c m position).map fun k => .classObject k false) := by
      intro b hb
      obtain ⟨k, hk, rfl⟩ := Option.map_eq_some_iff.mp hb
      exact (Codebase.backs_classObject k false).mpr (hdeclared k hk)
    have hopened := (h.bind name hbound).openScope (s := ⟨.classBody, []⟩) Codebase.backsTable_nil
    refine finds_pure ⟨hopened.scopes, fun k hk => ?_⟩
    rcases List.mem_cons.mp hk with hk | hk
    · exact hdeclared k hk.symm
    · exact h.classes k hk
  | openFunction name f =>
    exact (finds_bindParameters hq m h hc f).bind fun t ht =>
      finds_pure ((h.bind name Codebase.backsFound_none).openScope ht)
  | openScope names =>
    exact finds_pure (h.openScope (Codebase.backsTable_nil.foldl_insert_other names))
  | closeClass =>
    refine finds_pure ⟨h.closeScope.scopes, fun k hk => h.classes k (List.mem_of_mem_tail hk)⟩
  | closeScope => exact finds_pure h.closeScope

end

end Concordance.Binding
