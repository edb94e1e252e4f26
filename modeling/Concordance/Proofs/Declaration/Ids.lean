import Concordance.Proofs.Declaration.Members
import Concordance.Proofs.Text.Normal

/-!
# Ids tell symbols apart

The id of a member is that of its class, followed by a dot, the name of the member, a hash sign and
what kind of member it is. All four separators may come in the name of a project, and all but the
slash in that of a module, so that an id can only be read from its end: there is no colon behind the
one in front of the qualified name, no slash between that and the project, no hash sign behind the
one of the member, and no dot between that and its name. A nested class is written like a member
without a hash sign, and there is none in identifiers.

## Main definitions

* `IsIdentifier`, `IsQualified`: identifiers, and names made of them
* `MemberPart`: what the id of a member ends with
* `ClassName.Makes`: the symbols that are made for a class

## Main results

* `ClassName.makes_of_mem_walk`: all symbols of class statements are made like this
* `ClassName.id_eq_iff`: when ids are the same
-/

namespace Concordance

open Syntax

/-! ### Identifiers -/

/-- An identifier: a text that is one, or the normal form of one, which the parser gives instead. -/
def IsIdentifier (name : String) : Prop :=
  ∃ text, Text.isIdentifier text ∧
    (name = String.ofList text ∨ name = Text.normalize (String.ofList text))

/-- A qualified name: identifiers with dots between them. -/
def IsQualified (name : String) : Prop :=
  ∃ parts : List String, (∀ part ∈ parts, IsIdentifier part) ∧ name = joinDots parts

/-- There is no colon, dot or hash sign in the text of an identifier. -/
theorem Text.separator_notMem_of_isIdentifier {text : List Char} (h : isIdentifier text) {c : Char}
    (hc : isSeparator c.toNat = true) : c ∉ text := by
  have hstart : isIdentifierStart c = false ∧ isIdentifierContinue c = false := by
    rw [isSeparator, Bool.or_eq_true_iff, Bool.or_eq_true_iff, beq_iff_eq, beq_iff_eq,
      beq_iff_eq] at hc
    rcases hc with (hc | hc) | hc <;> rw [← Char.ofNat_toNat c, hc] <;> decide
  cases text with
  | nil => exact List.not_mem_nil
  | cons first rest =>
    obtain ⟨hfirst, hrest⟩ := Bool.and_eq_true_iff.mp h
    rintro (_ | ⟨_, hmem⟩)
    · simp [hstart.1] at hfirst
    · simpa [hstart.2] using List.all_eq_true.mp hrest c hmem

theorem IsIdentifier.separator_notMem {name : String} (h : IsIdentifier name) {c : Char}
    (hc : Text.isSeparator c.toNat = true) : c ∉ name.toList := by
  obtain ⟨text, htext, hname⟩ := h
  have hnot : c ∉ (String.ofList text).toList := by
    rw [String.toList_ofList]
    exact Text.separator_notMem_of_isIdentifier htext hc
  rcases hname with rfl | rfl
  · exact hnot
  · exact Text.separator_notMem_normalize hc hnot

theorem IsQualified.separator_notMem {name : String} (h : IsQualified name) {c : Char}
    (hc : Text.isSeparator c.toNat = true) (hdot : c ≠ '.') : c ∉ name.toList := by
  obtain ⟨parts, hparts, rfl⟩ := h
  intro hmem
  rcases mem_joinDots hmem with heq | ⟨part, hpart, hmem⟩
  · exact hdot heq
  · exact (hparts part hpart).separator_notMem hc hmem

/-! ### What ids are made of -/

/-- What a symbol of a member is: the member itself, or an accessor of a property. -/
inductive MemberPart where
  | method
  | property
  | field
  | getter
  | setter
deriving DecidableEq

/-- What its id ends with. -/
def MemberPart.text : MemberPart → String
  | .method => "method"
  | .property => "property"
  | .field => "field"
  | .getter => "get"
  | .setter => "set"

theorem MemberPart.text_injective : Function.Injective text := by
  intro part part'
  cases part <;> cases part' <;> decide

theorem MemberPart.separator_notMem_text (part : MemberPart) {c : Char}
    (hc : Text.isSeparator c.toNat = true) : c ∉ part.text.toList := by
  cases part <;> exact Text.separator_notMem_of_isIdentifier (by decide) hc

/-- How the id of a symbol goes on behind the qualified name of its class: not at all for the class
itself. -/
abbrev IdEnd := Option (String × MemberPart)

/-- What stands in an id behind the colon. -/
def IdEnd.behind (qualified : String) : IdEnd → String
  | none => qualified
  | some (name, part) => qualified ++ "." ++ name ++ "#" ++ part.text

namespace ClassName

/-- The symbols that are made for a class: its own, whatever it holds, and those of its members. -/
inductive Makes (c : ClassName) : IdEnd → Symbol → Prop
  | type (position : Position) (bases body : List Node) (nested : List Extracted) :
    Makes c none (Extracted.of c position bases body nested).own.symbol
  | method (name : String) : Makes c (some (name, .method)) (c.method name)
  | property (name : String) (getter setter : Bool) :
    Makes c (some (name, .property)) (c.property name getter setter)
  | field (name : String) : Makes c (some (name, .field)) (c.field name)
  | getter (name : String) : Makes c (some (name, .getter)) (c.accessor name "get")
  | setter (name : String) : Makes c (some (name, .setter)) (c.accessor name "set")

variable {m m' : SourceModule} {name name' : String} {container container' : Option String}
  {part part' : IdEnd} {s s' : Symbol}

theorem Makes.id_eq (h : (ClassName.of m name container).Makes part s) :
    s.id = classId m.project m.name (part.behind (ClassName.of m name container).qualified) := by
  have hmember (part : MemberPart) (id : String) :
      (ClassName.of m name container).id ++ "." ++ id ++ "#" ++ part.text =
        classId m.project m.name
          (IdEnd.behind (ClassName.of m name container).qualified (some (id, part))) := by
    simp only [ClassName.of, qualified, classId, IdEnd.behind, String.append_assoc]
  cases h with
  | type => rfl
  | method id => exact hmember .method id
  | property id => exact hmember .property id
  | field id => exact hmember .field id
  | getter id => exact hmember .getter id
  | setter id => exact hmember .setter id

/-- The symbols of a property are made for its class. -/
theorem makes_of_mem_walk_property {c : ClassName} {getter setter : Bool}
    (hs : s ∈ (c.property name getter setter).walk) : ∃ part, c.Makes part s := by
  rw [property, Symbol.walk, List.mem_cons, List.mem_append] at hs
  rcases hs with rfl | hs | hs
  · exact ⟨_, .property name getter setter⟩
  · cases getter with
    | false => cases hs
    | true =>
      obtain rfl := List.mem_singleton.mp hs
      exact ⟨_, .getter name⟩
  · cases setter with
    | false => cases hs
    | true =>
      obtain rfl := List.mem_singleton.mp hs
      exact ⟨_, .setter name⟩

/-- Whatever is met in a class statement is made for one of the classes. -/
theorem makes_of_mem_walk {m : SourceModule} {n : Node} {container : Option String} {x : Extracted}
    (hx : extractClass m container n = some x) :
    ∀ s ∈ x.own.symbol.walk,
      ∃ name container part, (ClassName.of m name container).Makes part s := by
  refine extractClass_induction ?_ n container x hx
  intro container p name bases keywords body decorators hbody s hs
  have hfit := Members.fit_ofBody (ClassName.of m name container) body
  rw [Extracted.walk_of, List.mem_cons, List.mem_flatMap] at hs
  rcases hs with rfl | ⟨member, hmember, hs⟩
  · exact ⟨name, container, none, .type _ _ _ _⟩
  rw [Extracted.members_of, List.mem_append, List.mem_append, List.mem_append] at hmember
  rcases hmember with ((hmember | hmember) | hmember) | hmember
  · obtain ⟨e, he, rfl⟩ := List.mem_map.mp hmember
    rw [(hfit.methods e he).2] at hs
    obtain rfl := List.mem_singleton.mp hs
    exact ⟨name, container, _, .method e.1⟩
  · obtain ⟨e, he, rfl⟩ := List.mem_map.mp hmember
    obtain ⟨id, -, rfl⟩ := List.mem_map.mp he
    exact ⟨name, container, makes_of_mem_walk_property hs⟩
  · obtain ⟨e, he, rfl⟩ := List.mem_map.mp hmember
    rw [(hfit.fields e he).2] at hs
    obtain rfl := List.mem_singleton.mp hs
    exact ⟨name, container, _, .field e.1⟩
  · obtain ⟨y, hy, rfl⟩ := List.mem_map.mp hmember
    obtain ⟨t, ht, hy⟩ := mem_extractClasses.mp hy
    exact hbody t ht y hy s hs

end ClassName

/-! ### Reading ids -/

/-- What stands behind the colon can be taken apart: at its last hash sign, if there is one, and
what stands before that at its last dot. -/
theorem IdEnd.behind_eq_iff {q q' : String} {part part' : IdEnd} (hq : '#' ∉ q.toList)
    (hq' : '#' ∉ q'.toList) (hpart : ∀ e ∈ part, IsIdentifier e.1)
    (hpart' : ∀ e ∈ part', IsIdentifier e.1) :
    part.behind q = part'.behind q' ↔ q = q' ∧ part = part' := by
  have htext (q name : String) (kind : MemberPart) : (IdEnd.behind q (some (name, kind))).toList =
      (q.toList ++ '.' :: name.toList) ++ '#' :: kind.text.toList := by
    simp [IdEnd.behind]
  have hhash {q name : String} {kind : MemberPart} :
      '#' ∈ (IdEnd.behind q (some (name, kind))).toList := by
    rw [htext]
    exact List.mem_append_right _ List.mem_cons_self
  match part, part' with
  | none, none => simp [IdEnd.behind]
  | none, some (name', kind') =>
    refine ⟨fun h => absurd ?_ hq, nofun⟩
    rw [show q = _ from h]
    exact hhash
  | some (name, kind), none =>
    refine ⟨fun h => absurd ?_ hq', nofun⟩
    rw [show q' = _ from h.symm]
    exact hhash
  | some (name, kind), some (name', kind') =>
    have hdot := (hpart _ rfl).separator_notMem (c := '.') rfl
    have hdot' := (hpart' _ rfl).separator_notMem (c := '.') rfl
    rw [← String.toList_inj, htext, htext,
      append_cons_inj (kind.separator_notMem_text rfl) (kind'.separator_notMem_text rfl),
      append_cons_inj hdot hdot', String.toList_inj, String.toList_inj, String.toList_inj,
      MemberPart.text_injective.eq_iff, Option.some_inj, Prod.mk.injEq, and_assoc]

/-- There is no colon behind the one in front of the qualified name. -/
theorem IdEnd.colon_notMem_behind {q : String} {part : IdEnd} (hq : ':' ∉ q.toList)
    (hpart : ∀ e ∈ part, IsIdentifier e.1) : ':' ∉ (part.behind q).toList := by
  match part with
  | none => exact hq
  | some (name, kind) =>
    have hname := (hpart _ rfl).separator_notMem (c := ':') rfl
    have hkind := kind.separator_notMem_text (c := ':') rfl
    simp [IdEnd.behind, hq, hname, hkind]

namespace ClassName

variable {m m' : SourceModule} {name name' : String} {container container' : Option String}
  {part part' : IdEnd} {s s' : Symbol}

/-- **Ids tell symbols apart**: two symbols that are made for classes have the same id if and only
if their projects, their modules, the qualified names of the classes and the members are the same.
The names of the projects may hold any characters, and those of the modules any but slashes. -/
theorem id_eq_iff (hm : '/' ∉ m.name.toList) (hm' : '/' ∉ m'.name.toList)
    (hqualified : IsQualified (ClassName.of m name container).qualified)
    (hqualified' : IsQualified (ClassName.of m' name' container').qualified)
    (hpart : ∀ e ∈ part, IsIdentifier e.1) (hpart' : ∀ e ∈ part', IsIdentifier e.1)
    (hs : (ClassName.of m name container).Makes part s)
    (hs' : (ClassName.of m' name' container').Makes part' s') :
    s.id = s'.id ↔ m.project = m'.project ∧ m.name = m'.name ∧
      (ClassName.of m name container).qualified = (ClassName.of m' name' container').qualified ∧
        part = part' := by
  have hcolon := hqualified.separator_notMem (c := ':') rfl (by decide)
  have hcolon' := hqualified'.separator_notMem (c := ':') rfl (by decide)
  have hhash := hqualified.separator_notMem (c := '#') rfl (by decide)
  have hhash' := hqualified'.separator_notMem (c := '#') rfl (by decide)
  rw [hs.id_eq, hs'.id_eq, classId_eq_iff hm hm' (IdEnd.colon_notMem_behind hcolon hpart)
    (IdEnd.colon_notMem_behind hcolon' hpart'), IdEnd.behind_eq_iff hhash hhash' hpart hpart']

/-- All separators are in the name of the project. The class `A.B` is not the field `B` of `A`. -/
theorem id_ne_of_separators :
    (Extracted.of (.of ⟨"x:y.z#w", "", "a/b:c.d#e", false, []⟩ "B" (some "A")) ⟨0, 0⟩ [] []
      []).own.symbol.id ≠
        ((ClassName.of ⟨"x:y.z#w", "", "a/b:c.d#e", false, []⟩ "A" none).field "B").id := by
  intro heq
  have hA : IsIdentifier "A" := ⟨['A'], by decide, .inl rfl⟩
  have hB : IsIdentifier "B" := ⟨['B'], by decide, .inl rfl⟩
  have htype : ∀ e ∈ (none : IdEnd), IsIdentifier e.1 := fun _ h => nomatch h
  have hfield : ∀ e ∈ (some ("B", .field) : IdEnd), IsIdentifier e.1 := by
    rintro _ ⟨⟩
    exact hB
  have h := (id_eq_iff (by decide) (by decide) ⟨["A", "B"], by simp [hA, hB], rfl⟩
    ⟨["A"], by simp [hA], rfl⟩ htype hfield (.type _ _ _ _) (.field "B")).mp heq
  exact nomatch h.2.2.2

end ClassName

end Concordance
