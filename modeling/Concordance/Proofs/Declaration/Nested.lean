import Concordance.Proofs.Declaration.Members

/-!
# Classes within classes

A class finds a member that is a type by its name, and then the class itself in a table of its own.
The two agree: functions and fields are no types, so that a type is only found where the table has
it, and every class in the table is declared with the class around it.

## Main definitions

* `ClassDecl.Nests`: what a class finds of the classes within it

## Main results

* `nests_of_mem_classes`: the classes of a module that is read
-/

namespace Concordance

open Syntax

/-- A class finds a type in its table of classes, and these are among all classes. -/
structure ClassDecl.Nests (all : List ClassDecl) (d : ClassDecl) : Prop where
  find : ∀ name s, d.ownMember? name = some s → s.kind = .type →
    ∃ p, d.nested.find? name = some (p, s)
  declared : ∀ name p s, d.nested.find? name = some (p, s) →
    ∃ d' ∈ all, d'.position = p ∧ d'.symbol = s

theorem ClassDecl.Nests.mono {all all' : List ClassDecl} {d : ClassDecl} (h : d.Nests all)
    (hall : all ⊆ all') : d.Nests all' :=
  ⟨h.find, fun name p s hs => (h.declared name p s hs).imp fun _ => And.imp_left (@hall _)⟩

namespace Extracted

variable {c : ClassName} {p : Position} {bases body : List Node} {nested : List Extracted}

/-- A type that a class finds under a name is one of the classes within it. -/
theorem find?_nested_of_kind {name : String} {s : Symbol}
    (h : (Extracted.of c p bases body nested).own.ownMember? name = some s)
    (hkind : s.kind = .type) :
    ∃ q, (Extracted.of c p bases body nested).own.nested.find? name = some (q, s) := by
  have hfit := Members.fit_ofBody c body
  rcases ClassDecl.find?_of_ownMember? h with hs | hs | hs | hs
  · obtain ⟨-, hmethod⟩ := hfit.methods _ (Table.mem_of_find? hs)
    rw [show s = c.method name from hmethod] at hkind
    cases hkind
  · obtain ⟨n, -, hproperty⟩ := List.mem_map.mp (Table.mem_of_find? hs)
    obtain ⟨-, rfl⟩ := Prod.mk.inj hproperty
    cases hkind
  · obtain ⟨-, hfield⟩ := hfit.fields _ (Table.mem_of_find? hs)
    rw [show s = c.field name from hfield] at hkind
    cases hkind
  · exact hs

/-- A class statement is declared, and all that are declared by it find the classes in them. -/
structure Nests (x : Extracted) : Prop where
  own : x.own ∈ x.all
  classes : ∀ d ∈ x.all, d.Nests x.all

theorem nests_of (hnested : ∀ x ∈ nested, x.Nests) :
    (Extracted.of c p bases body nested).Nests := by
  set x := Extracted.of c p bases body nested with hx
  have hall : ∀ d, d ∈ x.all ↔ (∃ y ∈ nested, d ∈ y.all) ∨ d = x.own := fun d => mem_all_of
  refine ⟨(hall _).mpr (.inr rfl), fun d hd => ?_⟩
  rcases (hall d).mp hd with ⟨y, hy, hd⟩ | rfl
  · exact ((hnested y hy).classes d hd).mono fun d' hd' => (hall d').mpr (.inl ⟨y, hy, hd'⟩)
  · refine ⟨fun name s => find?_nested_of_kind, fun name q s hs => ?_⟩
    obtain ⟨y, hy, hposition, hsymbol⟩ := exists_mem_of_find?_nested hs
    exact ⟨y.own, (hall _).mpr (.inl ⟨y, hy, (hnested y hy).own⟩), hposition, hsymbol⟩

end Extracted

/-- The classes of a module that is read. -/
theorem SourceModule.nests_of_mem_classes {m : SourceModule} (h : ∀ n ∈ m.body, n.Written []) :
    ∀ d ∈ (extractModule m).classes, d.Nests (extractModule m).classes := by
  intro d hd
  obtain ⟨x, hx, hd⟩ := List.mem_flatMap.mp hd
  have hnests := statements_induction h (fun _ _ _ _ _ _ _ => Extracted.nests_of) x hx
  exact (hnests.classes d hd).mono fun d' hd' => List.mem_flatMap.mpr ⟨x, hx, hd'⟩

end Concordance
