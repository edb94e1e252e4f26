import Concordance.Proofs.Binding.Settling
import Mathlib.Data.List.Basic
import Mathlib.Logic.Equiv.Basic

/-!
# The order of modules

Modules are told apart by their place in a codebase, and so are the classes in them. The place means
nothing else: if the names of all modules are different, then the modules in another order are the
same codebase under other indices. What a question is answered with, apart from what is kept and
from what is open, is the same under these indices.

## Main definitions

* `ClassId.rename`, `Denotation.rename`, `Question.rename`: what is meant under other indices
* `Codebase.Renamed`: a codebase is another one under other indices
* `Carried`: work ends as other work does, under other indices

## Main results

* `Codebase.Renamed.unfolded`: answers are the same under other indices
* `Codebase.exists_renamed`: modules in another order
-/

namespace Concordance.Binding

/-! ### Other indices -/

/-- The class that is meant, under other indices. -/
def ClassId.rename (σ : Nat → Nat) (k : ClassId) : ClassId := ⟨σ k.moduleIndex, k.position⟩

theorem ClassId.rename_injective {σ : Nat → Nat} (hσ : Function.Injective σ) :
    Function.Injective (ClassId.rename σ) := by
  rintro ⟨m, p⟩ ⟨m', p'⟩ h
  obtain ⟨hm, hp⟩ := ClassId.mk.inj h
  exact congrArg₂ ClassId.mk (hσ hm) hp

/-- What is denoted, under other indices. -/
def Denotation.rename (σ : Nat → Nat) : Denotation → Denotation
  | classObject k aliased => classObject (k.rename σ) aliased
  | instanceOf k => instanceOf (k.rename σ)
  | moduleNamed name => moduleNamed name
  | basesOf k => basesOf (k.rename σ)
  | other => other

/-- What may be denoted, under other indices. -/
abbrev renameFound (σ : Nat → Nat) : Option Denotation → Option Denotation :=
  Option.map <| Denotation.rename σ

theorem Denotation.rename_asValue (σ : Nat → Nat) (b : Denotation) :
    b.asValue.rename σ = (b.rename σ).asValue := by
  cases b <;> rfl

theorem Denotation.map_called (σ : Nat → Nat) (b : Denotation) :
    b.called.map (rename σ) = (b.rename σ).called := by
  cases b <;> rfl

theorem Denotation.map_class? (σ : Nat → Nat) (b : Denotation) :
    b.class?.map (ClassId.rename σ) = (b.rename σ).class? := by
  cases b <;> rfl

/-- The question that is asked, under other indices. -/
def Question.rename (σ : Nat → Nat) : Question → Question
  | ofName m name => ofName (σ m) name
  | ofMember owner attr aspect => ofMember (owner.rename σ) attr aspect

/-- A source, under other indices. -/
def Source.rename (σ : Nat → Nat) : Source → Source
  | classStatement k => classStatement (k.rename σ)
  | s => s

/-- The outline of a module, under other indices. -/
def Outline.rename (σ : Nat → Nat) (o : Outline) : Outline :=
  { o with names := o.names.map fun e => (e.1, e.2.map (Source.rename σ)) }

namespace Outline

variable (σ : Nat → Nat)

theorem find?_rename (o : Outline) (name : String) :
    (o.rename σ).names.find? name = (o.names.find? name).map (List.map (Source.rename σ)) := by
  rw [rename]
  induction o.names with
  | nil => rfl
  | cons e rest ih =>
    rw [List.map_cons, Table.find?, Table.find?, ih]
    split <;> rfl

theorem rename_add (o : Outline) (name : String) (s : Source) :
    (o.rename σ).add name (s.rename σ) = (o.add name s).rename σ := by
  rw [add, add, rename, rename]
  refine congrArg (fun names : Table String (List Source) => ({ o with names } : Outline)) ?_
  dsimp only
  induction o.names with
  | nil => rfl
  | cons e rest ih =>
    rw [List.map_cons, Table.alter, Table.alter, apply_ite (List.map _), ih]
    simp

/-- What enters things, enters them under other indices. -/
theorem rename_foldl {α : Type} {f g : Outline → α → Outline} {l : List α}
    (hfg : ∀ o, ∀ a ∈ l, g (o.rename σ) a = (f o a).rename σ) (o : Outline) :
    l.foldl g (o.rename σ) = (l.foldl f o).rename σ := by
  induction l generalizing o with
  | nil => rfl
  | cons a l ih =>
    rw [List.foldl_cons, List.foldl_cons, hfg o a List.mem_cons_self]
    exact ih (fun o a' ha' => hfg o a' (List.mem_cons_of_mem a ha')) _

theorem rename_addTarget (value : Designator) (o : Outline) (target : Syntax.Node) :
    addTarget value (o.rename σ) target = (addTarget value o target).rename σ := by
  unfold addTarget
  split
  · exact o.rename_add σ _ (.value value)
  · refine rename_foldl σ (fun o n _ => ?_) o
    split
    · exact o.rename_add σ _ .other
    · rfl

theorem rename_addImported (target : Option String) (o : Outline) (a : Syntax.Alias) :
    addImported target (o.rename σ) a = (addImported target o a).rename σ := by
  unfold addImported
  split
  · split
    · rfl
    · exact o.rename_add σ _ (.nameImport _ a.name)
  · split
    · rfl
    · exact o.rename_add σ _ .other

theorem rename_addStatement (m : SourceModule) (index : Nat) (o : Outline)
    (stmt : Syntax.Node) :
    addStatement m (σ index) (o.rename σ) stmt = (addStatement m index o stmt).rename σ := by
  unfold addStatement
  split
  · exact o.rename_add σ _ (.classStatement ⟨index, _⟩)
  · exact o.rename_add σ _ .other
  · exact rename_foldl σ (fun o a _ => o.rename_add σ _ (.moduleImport _)) o
  · exact rename_foldl σ (fun o a _ => rename_addImported σ _ o a) o
  · exact rename_foldl σ (fun o t _ => rename_addTarget σ _ o t) o
  · exact o.rename_add σ _ (.hinted _ _)
  · rfl

theorem rename_ofModule (m : SourceModule) (index : Nat) :
    ofModule m (σ index) = (ofModule m index).rename σ :=
  rename_foldl σ (fun o stmt _ => rename_addStatement σ m index o stmt) {}

end Outline

/-- A codebase is another one under other indices. -/
structure Codebase.Renamed (σ : Nat → Nat) (c c' : Codebase) : Prop where
  injective : Function.Injective σ
  modules : ∀ m, c'.modules[σ m]? = c.modules[m]?
  outline : ∀ m, c'.outline (σ m) = (c.outline m).rename σ
  finds : ∀ name project, c'.findModule? name project = (c.findModule? name project).map σ
  has : ∀ name, c'.hasModule name = c.hasModule name
  bases : ∀ k, c'.basesOf (k.rename σ) = (c.basesOf k).map (ClassId.rename σ)

/-! ### Work under other indices -/

/-- Work ends as other work does, up to `g`, whatever is kept. -/
def Carried {α β : Type} (g : α → β) (x : Resolve α) (y : Resolve β) : Prop :=
  ∀ s t, (y.run t).1 = Except.map g (x.run s).1

namespace Carried

variable {α β γ δ : Type} {g : α → β} {h : γ → δ}

theorem pure (a : α) : Carried g (Pure.pure a) (Pure.pure (g a)) := fun _ _ => rfl

theorem throw (e : Fault) : Carried g (MonadExcept.throw e) (MonadExcept.throw e) := fun _ _ => rfl

theorem bind {x : Resolve α} {y : Resolve β} {f : α → Resolve γ} {f' : β → Resolve δ}
    (hxy : Carried g x y) (hf : ∀ a, Carried h (f a) (f' (g a))) :
    Carried h (x >>= f) (y >>= f') := by
  intro s t
  rw [run_bind, run_bind]
  have hst := hxy s t
  generalize x.run s = p at hst ⊢
  generalize y.run t = p' at hst ⊢
  obtain ⟨e | a, s'⟩ := p
  · obtain ⟨r, t'⟩ := p'
    obtain rfl : r = .error e := hst
    rfl
  · obtain ⟨r, t'⟩ := p'
    obtain rfl : r = .ok (g a) := hst
    exact hf a s' t'

theorem map {x : Resolve α} {y : Resolve β} {f : α → γ} {f' : β → δ} (hxy : Carried g x y)
    (hf : ∀ a, h (f a) = f' (g a)) : Carried h (f <$> x) (f' <$> y) := by
  rw [map_eq_pure_bind, map_eq_pure_bind]
  refine hxy.bind fun a => ?_
  rw [← hf a]
  exact .pure (f a)

end Carried

namespace Codebase.Renamed

variable {σ : Nat → Nat} {c c' : Codebase} (h : Renamed σ c c')

include h

/-! ### Declarations and members -/

theorem project? (m : Nat) : c'.project? (σ m) = c.project? m := by
  rw [Codebase.project?, Codebase.project?, h.modules]

theorem classDecl? (k : ClassId) : c'.classDecl? (k.rename σ) = c.classDecl? k := by
  rw [Codebase.classDecl?, Codebase.classDecl?]
  exact congrArg (Option.bind · _) (h.modules k.moduleIndex)

theorem ownMember? (name : String) (k : ClassId) :
    c'.ownMember? name (k.rename σ) = c.ownMember? name k := by
  rw [Codebase.ownMember?, Codebase.ownMember?, h.classDecl?]

theorem searchMember (name : String) (visited stack : List ClassId) :
    c'.searchMember name (visited.map (ClassId.rename σ)) (stack.map (ClassId.rename σ)) =
      (c.searchMember name visited stack).map fun found => (found.1, found.2.rename σ) := by
  have hmem (k : ClassId) (visited : List ClassId) :
      k.rename σ ∈ visited.map (ClassId.rename σ) ↔ k ∈ visited :=
    List.mem_map_of_injective (ClassId.rename_injective h.injective)
  induction visited, stack using searchMember.induct c name with
  | case1 visited => simp [Codebase.searchMember]
  | case2 visited k stack hk ih =>
    rw [List.map_cons, Codebase.searchMember, if_pos ((hmem k visited).mpr hk),
      Codebase.searchMember, if_pos hk]
    exact ih
  | case3 visited k stack hk s hs =>
    rw [List.map_cons, Codebase.searchMember, if_neg (mt (hmem k visited).mp hk),
      Codebase.searchMember, if_neg hk, h.ownMember?, hs]
    rfl
  | case4 visited k stack hk hs ih =>
    rw [List.map_cons, Codebase.searchMember, if_neg (mt (hmem k visited).mp hk),
      Codebase.searchMember, if_neg hk, h.ownMember?, hs, h.bases, ← List.map_append]
    exact ih

theorem memberOn? (b : Denotation) (attr : String) :
    c'.memberOn? (b.rename σ) attr =
      (c.memberOn? b attr).map fun found => (found.1, found.2.rename σ) := by
  cases b with
  | moduleNamed name => rfl
  | other => rfl
  | classObject k aliased => exact h.searchMember attr [] [k]
  | instanceOf k => exact h.searchMember attr [] [k]
  | basesOf k =>
    have hsearch := h.searchMember attr [] (c.basesOf k)
    rw [← h.bases] at hsearch
    exact hsearch

theorem methodOwner? (b : Option Denotation) (attr : String) :
    Binding.methodOwner? c' (renameFound σ b) attr =
      (Binding.methodOwner? c b attr).map (ClassId.rename σ) := by
  cases b with
  | none => rfl
  | some b =>
    show ((c'.memberOn? (b.rename σ) attr).bind _) = ((c.memberOn? b attr).bind _).map _
    rw [h.memberOn?]
    cases c.memberOn? b attr with
    | none => rfl
    | some found =>
      by_cases hkind : found.1.kind = .method <;> simp [hkind]

/-! ### Answers -/

section

variable {q q' : Questions}
  (hq : ∀ Q, Carried (renameFound σ) (q.reply Q) (q'.reply (Q.rename σ)))

include hq

omit h in
theorem exportedFrom (m : Option Nat) (name : String) :
    Carried (renameFound σ) (q.exportedFrom m name)
      (q'.exportedFrom (m.map σ) name) := by
  cases m with
  | none => exact .pure none
  | some m => exact hq (.ofName m name)

theorem importFrom (project : Option String) (target name : String) :
    Carried (fun b => b.rename σ) (importFrom c q project target name)
      (Binding.importFrom c' q' project target name) := by
  rw [Binding.importFrom, Binding.importFrom, h.finds]
  refine (exportedFrom hq _ name).bind fun found => ?_
  cases found with
  | some b => exact .pure b
  | none =>
    dsimp only [Option.map_none]
    rw [h.has]
    cases c.hasModule (target ++ "." ++ name) with
    | true => exact .pure _
    | false => exact .pure Denotation.other

theorem memberOf (b : Denotation) (attr : String) :
    Carried (renameFound σ) (memberOf c q b attr)
      (Binding.memberOf c' q' (b.rename σ) attr) := by
  have hfound (b : Denotation) (hb : ∀ name, b ≠ .moduleNamed name) :
      Carried (renameFound σ) (Binding.memberOf c q b attr)
        (Binding.memberOf c' q' (b.rename σ) attr) := by
    have hb' : ∀ name, b.rename σ ≠ .moduleNamed name := by
      cases b with
      | moduleNamed name => exact absurd rfl (hb name)
      | _ => exact fun name => nofun
    rw [Binding.memberOf.eq_2 _ _ _ _ hb, Binding.memberOf.eq_2 _ _ _ _ hb', h.memberOn?]
    cases c.memberOn? b attr with
    | none => exact .pure none
    | some found =>
      obtain ⟨member, owner⟩ := found
      dsimp only [Option.map_some]
      cases member.kind with
      | field => exact hq (.ofMember owner attr .content)
      | property => exact hq (.ofMember owner attr .content)
      | method => exact .pure none
      | type =>
        dsimp only
        rw [h.classDecl?]
        cases (c.classDecl? owner).bind fun d => d.nested.find? attr with
        | none => exact .pure none
        | some n => exact .pure _
  cases b with
  | moduleNamed name =>
    show Carried _ (if c.hasModule (name ++ "." ++ attr) then _ else _)
      (if c'.hasModule (name ++ "." ++ attr) then _ else _)
    rw [h.has, h.finds]
    cases c.hasModule (name ++ "." ++ attr) with
    | true => exact .pure _
    | false => exact exportedFrom hq _ attr
  | classObject k aliased => exact hfound _ nofun
  | instanceOf k => exact hfound _ nofun
  | basesOf k => exact hfound _ nofun
  | other => exact hfound _ nofun

theorem memberOfOption (b : Option Denotation) (attr : String) :
    Carried (renameFound σ) (memberOfOption c q b attr)
      (Binding.memberOfOption c' q' (renameFound σ b) attr) := by
  cases b with
  | none => exact .pure none
  | some b => exact h.memberOf hq b attr

omit h hq in
theorem map_bind_called (b : Option Denotation) :
    renameFound σ (b.bind Denotation.called) =
      (renameFound σ b).bind Denotation.called := by
  cases b with
  | none => rfl
  | some b => exact b.map_called σ

theorem resolve {lookup l : Lookup}
    (hlookup : ∀ id, Carried (renameFound σ) (lookup id) (l id))
    (enclosing : Option ClassId) (d : Designator) :
    Carried (renameFound σ) (resolve c q lookup enclosing d)
      (Binding.resolve c' q' l (enclosing.map (ClassId.rename σ)) d) := by
  induction d using resolve.induct with
  | case1 => exact .pure none
  | case2 id => exact hlookup id
  | case3 value attr ih => exact ih.bind fun b => h.memberOfOption hq b attr
  | case4 id argument ih =>
    refine (hlookup id).bind fun found => ?_
    cases found with
    | some b =>
      dsimp only [Option.map_some]
      rw [← b.map_called]
      exact .pure _
    | none =>
      dsimp only [Option.map_none]
      split
      · cases enclosing with
        | none => exact .pure none
        | some k => exact .pure _
      · split
        · refine ih.bind fun b => ?_
          rcases b with _ | b
          · exact .pure none
          · cases b with
            | instanceOf k => exact .pure _
            | _ => exact .pure none
        · exact .pure none
  | case5 value attr argument ih =>
    refine ih.bind fun receiver => ?_
    rw [h.methodOwner?]
    cases Binding.methodOwner? c receiver attr with
    | none => exact (h.memberOfOption hq receiver attr).map fun b => map_bind_called b
    | some owner => exact hq (.ofMember owner attr .result)
  | case6 callee argument hname hmember ih =>
    rw [Binding.resolve.eq_6 _ _ _ _ _ _ hname hmember,
      Binding.resolve.eq_6 _ _ _ _ _ _ hname hmember]
    exact ih.map fun b => map_bind_called b

theorem resolveHint {lookup l : Lookup}
    (hlookup : ∀ id, Carried (renameFound σ) (lookup id) (l id)) (t : Hint) :
    Carried (renameFound σ) (resolveHint c q lookup t)
      (Binding.resolveHint c' q' l t) := by
  induction t with
  | nothing => exact .pure none
  | unreadable why => exact .throw _
  | designator d => exact (h.resolve hq hlookup none d).map fun b => map_bind_called b
  | either first second ih ih' =>
    refine ih.bind fun found => ?_
    cases found with
    | none => exact ih'
    | some b => exact .pure (some b)
  | typeOf t ih =>
    refine ih.map fun b => ?_
    cases b with
    | none => rfl
    | some b =>
      show Option.map _ (b.class?.map _) = (b.rename σ).class?.map _
      rw [← b.map_class?, Option.map_map, Option.map_map]
      rfl

theorem resolveTyped {lookup l : Lookup}
    (hlookup : ∀ id, Carried (renameFound σ) (lookup id) (l id))
    (enclosing : Option ClassId) (hint : Hint) (value : Option Designator) :
    Carried (renameFound σ) (resolveTyped c q lookup enclosing hint value)
      (Binding.resolveTyped c' q' l (enclosing.map (ClassId.rename σ)) hint value) := by
  refine (h.resolveHint hq hlookup hint).bind fun found => ?_
  cases found with
  | some b => exact .pure (some b)
  | none =>
    cases value with
    | some d => exact h.resolve hq hlookup enclosing d
    | none => exact .pure none

theorem resolveSource (m : Nat) (s : Source) :
    Carried (renameFound σ) (resolveSource c q m s)
      (Binding.resolveSource c' q' (σ m) (s.rename σ)) := by
  have hlookup : ∀ id, Carried (renameFound σ) (q.exported m id)
      (q'.exported (σ m) id) := fun id => hq (.ofName m id)
  have hvalue (b : Option Denotation) : renameFound σ (b.map Denotation.asValue) =
      (renameFound σ b).map Denotation.asValue := by
    cases b with
    | none => rfl
    | some b => exact congrArg some (b.rename_asValue σ)
  cases s with
  | classStatement k => exact .pure _
  | moduleImport name => exact .pure _
  | nameImport target name =>
    show Carried _ (some <$> Binding.importFrom c q (c.project? m) target name)
      (some <$> Binding.importFrom c' q' (c'.project? (σ m)) target name)
    rw [h.project?]
    exact (h.importFrom hq _ target name).map fun b => rfl
  | value d => exact (h.resolve hq hlookup none d).map hvalue
  | hinted t value => exact (h.resolveTyped hq hlookup none t value).map hvalue
  | other => exact .pure (some Denotation.other)

theorem firstInformative (m : Nat) (sources : List Source) :
    Carried (fun b => b.rename σ) (firstInformative c q m sources)
      (Binding.firstInformative c' q' (σ m) (sources.map (Source.rename σ))) := by
  induction sources with
  | nil => exact .pure Denotation.other
  | cons s rest ih =>
    refine (h.resolveSource hq m s).bind fun found => ?_
    rcases found with _ | b
    · exact ih
    · cases b with
      | other => exact ih
      | classObject k aliased => exact .pure _
      | instanceOf k => exact .pure _
      | moduleNamed name => exact .pure _
      | basesOf k => exact .pure _

theorem firstExport (m : Nat) (name : String) (targets : List String) :
    Carried (renameFound σ) (firstExport c q m name targets)
      (Binding.firstExport c' q' (σ m) name targets) := by
  induction targets with
  | nil => exact .pure none
  | cons target rest ih =>
    rw [Binding.firstExport, Binding.firstExport, h.project?, h.finds]
    refine (exportedFrom hq _ name).bind fun found => ?_
    cases found with
    | some b => exact .pure (some b)
    | none => exact ih

theorem resolveExport (m : Nat) (name : String) :
    Carried (renameFound σ) (resolveExport c q m name)
      (Binding.resolveExport c' q' (σ m) name) := by
  have hfind : (c'.outline (σ m)).names.find? name =
      ((c.outline m).names.find? name).map (List.map (Source.rename σ)) := by
    rw [h.outline]
    exact Outline.find?_rename σ _ name
  rw [Binding.resolveExport, Binding.resolveExport, hfind]
  cases (c.outline m).names.find? name with
  | some sources =>
    dsimp only [Option.map_some]
    rw [← List.map_reverse]
    exact (h.firstInformative hq m sources.reverse).map fun b => rfl
  | none =>
    dsimp only [Option.map_none]
    split
    · exact .pure none
    · rw [h.outline]
      exact h.firstExport hq m name _

theorem resolveMemberType (owner : ClassId) (attr : String) (aspect : Aspect) :
    Carried (renameFound σ) (resolveMemberType c q owner attr aspect)
      (Binding.resolveMemberType c' q' (owner.rename σ) attr aspect) := by
  have hlookup : ∀ id, Carried (renameFound σ)
      (q.exported owner.moduleIndex id) (q'.exported (owner.rename σ).moduleIndex id) :=
    fun id => hq (.ofName owner.moduleIndex id)
  rw [Binding.resolveMemberType, Binding.resolveMemberType, h.classDecl?]
  cases c.classDecl? owner with
  | none => exact .pure none
  | some d =>
    cases aspect with
    | result =>
      dsimp only
      split
      · exact h.resolveHint hq hlookup _
      · exact .pure none
    | content =>
      dsimp only
      split
      · exact h.resolveHint hq hlookup _
      · split
        · exact h.resolve hq hlookup none _
        · exact .pure none

/-- Answers are the same under other indices if those are that they are worked out from. -/
theorem answer (Q : Question) :
    Carried (renameFound σ) (c.answer q Q) (c'.answer q' (Q.rename σ)) := by
  cases Q with
  | ofName m name => exact h.resolveExport hq m name
  | ofMember owner attr aspect => exact h.resolveMemberType hq owner attr aspect

end

/-- **Answers are the same under other indices**, down to any depth. -/
theorem unfolded (depth : Nat) (Q : Question) :
    Codebase.unfolded [c'] depth (Q.rename σ) =
      Except.map (renameFound σ) (Codebase.unfolded [c] depth Q) := by
  induction depth generalizing Q with
  | zero => rfl
  | succ depth ih =>
    rw [unfolded_singleton, unfolded_singleton]
    refine h.answer (fun Q' s t => ?_) Q [] []
    rw [Answers.run_reply, Answers.run_reply, ih]

end Codebase.Renamed

/-! ### Modules in another order -/

/-- A permutation of indices, below a first one that stays where it is. -/
def belowFirst (σ : Nat ≃ Nat) : Nat ≃ Nat where
  toFun
    | 0 => 0
    | i + 1 => σ i + 1
  invFun
    | 0 => 0
    | i + 1 => σ.symm i + 1
  left_inv := by
    rintro (_ | i) <;> simp
  right_inv := by
    rintro (_ | i) <;> simp

/-- A permutation of a list is one of its indices. -/
theorem exists_equiv_of_perm {α : Type} {l l' : List α} (h : l.Perm l') :
    ∃ σ : Nat ≃ Nat, ∀ i, l'[σ i]? = l[i]? := by
  induction h with
  | nil => exact ⟨.refl Nat, fun i => rfl⟩
  | cons a _ ih =>
    obtain ⟨σ, hσ⟩ := ih
    refine ⟨belowFirst σ, ?_⟩
    rintro (_ | i)
    · rfl
    · exact hσ i
  | swap a b l =>
    refine ⟨.swap 0 1, ?_⟩
    rintro (_ | _ | i)
    · rfl
    · rfl
    · rw [Equiv.swap_apply_of_ne_of_ne (by omega) (by omega)]
      rfl
  | trans _ _ ih ih' =>
    obtain ⟨σ, hσ⟩ := ih
    obtain ⟨τ, hτ⟩ := ih'
    exact ⟨σ.trans τ, fun i => (hτ (σ i)).trans (hσ i)⟩

namespace Codebase

variable {modules modules' : List ModuleDecls}

theorem outline_ofModules (modules : List ModuleDecls) (m : Nat) :
    (ofModules modules).outline m =
      ((modules[m]?).map fun d => Outline.ofModule d.source m).getD {} := by
  simp [outline, ofModules]

/-- If all names are different, a name tells the place of its module. -/
theorem index_eq_of_name (h : (modules.map fun d => d.source.name).Nodup) {m m' : Nat}
    {d d' : ModuleDecls} (hd : modules[m]? = some d) (hd' : modules[m']? = some d')
    (hname : d.source.name = d'.source.name) : m = m' := by
  have hlt : m < (modules.map fun d => d.source.name).length := by
    rw [List.length_map]
    exact (List.getElem?_eq_some_iff.mp hd).1
  refine (List.getElem?_inj hlt h).mp ?_
  rw [List.getElem?_map, List.getElem?_map, hd, hd']
  exact congrArg some hname

/-- If all names are different, the module of a name is found whatever project asks for it. -/
theorem findModule?_eq_some_iff (h : (modules.map fun d => d.source.name).Nodup) {name : String}
    {project : Option String} {m : Nat} :
    (ofModules modules).findModule? name project = some m ↔
      ∃ d, modules[m]? = some d ∧ d.source.name = name := by
  have hname {p : ModuleDecls → Bool} (hp : ∀ d, p d → d.source.name = name) {m : Nat}
      (hm : modules.findIdx? p = some m) : ∃ d, modules[m]? = some d ∧ d.source.name = name := by
    obtain ⟨hlt, hpm, -⟩ := List.findIdx?_eq_some_iff_getElem.mp hm
    exact ⟨_, List.getElem?_eq_getElem hlt, hp _ hpm⟩
  have hfound {m : Nat} (hm : (ofModules modules).findModule? name project = some m) :
      ∃ d, modules[m]? = some d ∧ d.source.name = name := by
    rcases Option.or_eq_some_iff.mp hm with hown | ⟨-, hany⟩
    · exact hname (fun d hd => of_decide_eq_true (Bool.and_eq_true_iff.mp hd).1) hown
    · exact hname (fun d hd => of_decide_eq_true hd) hany
  refine ⟨hfound, fun ⟨d, hd, hdname⟩ => ?_⟩
  have hsome : (ofModules modules).findModule? name project ≠ none := by
    intro hnone
    obtain ⟨-, hany⟩ := Option.or_eq_none_iff.mp hnone
    have hno := List.findIdx?_eq_none_iff.mp hany d (List.mem_of_getElem? hd)
    exact absurd hdname (of_decide_eq_false hno)
  obtain ⟨m', hm'⟩ := Option.ne_none_iff_exists'.mp hsome
  obtain ⟨d', hd', hdname'⟩ := hfound hm'
  rw [hm', index_eq_of_name h hd' hd (hdname'.trans hdname.symm)]

/-- Modules with different names are the same codebase in any order. -/
theorem exists_renamed (hperm : modules.Perm modules')
    (hnames : (modules.map fun d => d.source.name).Nodup) :
    ∃ σ, Renamed σ (ofModules modules) (ofModules modules') := by
  obtain ⟨σ, hσ⟩ := exists_equiv_of_perm hperm
  have hnames' : (modules'.map fun d => d.source.name).Nodup := (hperm.map _).nodup_iff.mp hnames
  refine ⟨σ, σ.injective, hσ, fun m => ?_, fun name project => ?_, fun name => ?_, fun k => rfl⟩
  · rw [outline_ofModules, outline_ofModules, hσ]
    cases modules[m]? with
    | none => rfl
    | some d => exact Outline.rename_ofModule σ d.source m
  · refine Option.ext fun m' => ?_
    obtain ⟨m, rfl⟩ := σ.surjective m'
    rw [findModule?_eq_some_iff hnames', hσ, Option.map_eq_some_iff]
    constructor
    · exact fun h => ⟨m, (findModule?_eq_some_iff hnames).mpr h, rfl⟩
    · rintro ⟨m₁, hm₁, heq⟩
      obtain rfl := σ.injective heq
      exact (findModule?_eq_some_iff hnames).mp hm₁
  · exact hperm.symm.any_eq

end Codebase

end Concordance.Binding
