import Concordance.Proofs.Syntax.Declared
import Concordance.Proofs.Syntax.Levels

/-!
# Declared classes and their symbols

The symbol of a class holds its members, and those of the classes within it hold theirs. Members are
collected while the body is gone through several times, so what they have in common is an invariant
of the collection: the entry of a name is the symbol that is made for it, and the name is a word of
the source.

A module declares a class for each class statement that is seen, but looks a nested class up among
the last ones of each name. Either way it is a type that the symbol of the class around it holds.

## Main definitions

* `Syntax.Node.names`: the names in a tree
* `Members.Fit`: what members have in common while they are collected
* `ClassDecl.Sound`, `Extracted.Sound`: what classes and their symbols have in common

## Main results

* `Members.ofBody_induction`: what is known of the members of a body, by the ways they are collected
* `Members.fit_ofBody`: the members of a body
* `extractClass_written_induction`: what is known of class statements, from those within them
* `sound_of_mem_classes`: the classes of a module that is read
-/

namespace Concordance

open Syntax

/-! ### Tables -/

namespace Table

variable {κ α : Type} [DecidableEq κ] {key : κ} {a : α} {t : Table κ α} {e : κ × α}

theorem mem_of_mem_insertNew (h : e ∈ t.insertNew key a) : e ∈ t ∨ e = (key, a) := by
  rw [insertNew] at h
  split at h
  · exact .inl h
  · exact (List.mem_append.mp h).imp_right List.mem_singleton.mp

/-- In a table of different keys an entry takes the place of the one of its key. -/
theorem mem_insert_iff (h : (t.map Prod.fst).Nodup) :
    e ∈ t.insert key a ↔ e = (key, a) ∨ e ∈ t ∧ e.1 ≠ key := by
  induction t with
  | nil => simp [insert]
  | cons first rest ih =>
    obtain ⟨hfirst, hrest⟩ := List.nodup_cons.mp h
    rw [insert]
    split
    · rename_i hkey
      rw [List.mem_cons, List.mem_cons]
      refine ⟨fun he => he.imp (fun he => by rw [he, hkey]) fun he => ⟨.inr he, ?_⟩, ?_⟩
      · rintro hkey'
        exact hfirst (hkey.trans hkey'.symm ▸ List.mem_map_of_mem he)
      · rintro (rfl | ⟨rfl | he, hne⟩)
        · exact .inl (by rw [hkey])
        · exact absurd hkey hne
        · exact .inr he
    · rename_i hkey
      rw [List.mem_cons, ih hrest, List.mem_cons]
      constructor
      · rintro (rfl | he | ⟨he, hne⟩)
        · exact .inr ⟨.inl rfl, hkey⟩
        · exact .inl he
        · exact .inr ⟨.inr he, hne⟩
      · rintro (he | ⟨rfl | he, hne⟩)
        · exact .inr (.inl he)
        · exact .inl rfl
        · exact .inr (.inr ⟨he, hne⟩)

theorem nodup_insert (h : (t.map Prod.fst).Nodup) :
    ((t.insert key a).map Prod.fst).Nodup := by
  induction t with
  | nil => simp [insert]
  | cons first rest ih =>
    obtain ⟨hfirst, hrest⟩ := List.nodup_cons.mp h
    rw [insert]
    split
    · exact h
    · rename_i hkey
      refine List.nodup_cons.mpr ⟨fun hmem => ?_, ih hrest⟩
      obtain ⟨e, he, heq⟩ := List.mem_map.mp hmem
      rcases (mem_insert_iff hrest).mp he with rfl | ⟨he, -⟩
      · exact hkey heq.symm
      · exact hfirst (heq ▸ List.mem_map_of_mem he)

/-- When things are entered one after the other, the last one of each key is there in the end. -/
theorem mem_foldl_insert {β : Type} (entry : β → κ × α) (l : List β) :
    ((l.foldl (fun t b => Table.insert (entry b).1 (entry b).2 t) []).map Prod.fst).Nodup ∧
      ∀ e, e ∈ l.foldl (fun t b => Table.insert (entry b).1 (entry b).2 t) [] ↔
        ∃ before b after, l = before ++ b :: after ∧ entry b = e ∧
          ∀ b' ∈ after, (entry b').1 ≠ e.1 := by
  induction l using List.reverseRecOn with
  | nil => simp
  | append_singleton l last ih =>
    obtain ⟨hnodup, ih⟩ := ih
    rw [List.foldl_concat]
    constructor
    · exact nodup_insert hnodup
    · intro e
      rw [mem_insert_iff hnodup, ih]
      constructor
      · rintro (rfl | ⟨⟨before, b, after, rfl, rfl, hafter⟩, hne⟩)
        · exact ⟨l, last, [], rfl, rfl, nofun⟩
        · refine ⟨before, b, after ++ [last], by simp, rfl, ?_⟩
          exact List.forall_mem_append.mpr ⟨hafter, List.forall_mem_singleton.mpr (Ne.symm hne)⟩
      · rintro ⟨before, b, after, heq, rfl, hafter⟩
        rcases List.eq_nil_or_concat after with rfl | ⟨after, x, rfl⟩
        · obtain ⟨-, hlast⟩ := List.append_inj' heq rfl
          cases hlast
          exact .inl rfl
        · rw [List.concat_eq_append] at hafter heq
          rw [← List.cons_append, ← List.append_assoc] at heq
          obtain ⟨rfl, hlast⟩ := List.append_inj' heq rfl
          cases hlast
          obtain ⟨hafter, hlast⟩ := List.forall_mem_append.mp hafter
          refine .inr ⟨⟨before, b, after, rfl, rfl, hafter⟩, ?_⟩
          exact Ne.symm (hlast _ List.mem_cons_self)

end Table

/-! ### Collecting members -/

namespace Syntax.Node

/-- The names in a tree. -/
def names (n : Node) : List String := n.breadthFirst.flatMap ownNames

theorem mem_names {n : Node} {name : String} (h : name ∈ n.ownNames) : name ∈ n.names :=
  List.mem_flatMap.mpr ⟨n, mem_breadthFirst_iff.mpr .refl, h⟩

theorem names_subset {n p : Node} {names : List String} (h : n.names ⊆ names)
    (hp : p ∈ n.breadthFirst) : p.names ⊆ names := by
  intro name hname
  apply h
  obtain ⟨q, hq, hname⟩ := List.mem_flatMap.mp hname
  refine List.mem_flatMap.mpr ⟨q, mem_breadthFirst_iff.mpr ?_, hname⟩
  exact (mem_breadthFirst_iff.mp hp).trans (mem_breadthFirst_iff.mp hq)

theorem names_subset_of_mem_parts {n p : Node} {names : List String} (h : n.names ⊆ names)
    (hp : p ∈ n.parts) : p.names ⊆ names :=
  names_subset h (mem_breadthFirst_iff.mpr (.single hp))

theorem names_subset_flatMap {body : List Node} {n : Node} (h : n ∈ body) :
    n.names ⊆ body.flatMap names :=
  fun _ hname => List.mem_flatMap.mpr ⟨n, h, hname⟩

theorem Written.isWord {n : Node} (h : n.Written []) : ∀ name ∈ n.ownNames, IsWord name :=
  fun name hname => ((Node.written_iff.mp h).1 name hname).isWord (List.forall_mem_nil _)

/-- The names in statements are words if these are written with words. -/
theorem isWord_of_mem_names {body : List Node} (h : ∀ n ∈ body, n.Written []) :
    ∀ name ∈ body.flatMap names, IsWord name := by
  intro name hname
  obtain ⟨n, hn, hname⟩ := List.mem_flatMap.mp hname
  obtain ⟨p, hp, hname⟩ := List.mem_flatMap.mp hname
  exact ((h n hn).breadthFirst p hp).isWord name hname

end Syntax.Node

namespace Members

/-- Each method and field is the symbol that is made for its name, and the names of all members are
among these. -/
structure Fit (c : ClassName) (names : List String) (ms : Members) : Prop where
  methods : ∀ e ∈ ms.methods, e.1 ∈ names ∧ e.2 = c.method e.1
  properties : ∀ name ∈ ms.properties, name ∈ names
  fields : ∀ e ∈ ms.fields, e.1 ∈ names ∧ e.2 = c.field e.1

variable {c : ClassName} {names : List String} {ms : Members}

theorem fit_empty (c : ClassName) (names : List String) : Fit c names {} := ⟨nofun, nofun, nofun⟩

theorem forall_mem_addName {P : String → Prop} {name : String} {names : List String}
    (hname : P name) (h : ∀ n ∈ names, P n) : ∀ n ∈ addName name names, P n := by
  rw [addName]
  split
  · exact h
  · exact List.forall_mem_append.mpr ⟨h, List.forall_mem_singleton.mpr hname⟩

theorem Fit.addFunction (h : ms.Fit c names) {name : String} (hname : name ∈ names)
    (decorators : List Node) (result : Option Node) :
    (ms.addFunction c name decorators result).Fit c names := by
  rw [Members.addFunction]
  split
  · exact ⟨h.methods, forall_mem_addName hname h.properties, h.fields⟩
  · exact ⟨h.methods, forall_mem_addName hname h.properties, h.fields⟩
  · exact h
  · refine ⟨fun e he => ?_, h.properties, h.fields⟩
    rcases Table.mem_of_mem_insertNew he with he | rfl
    · exact h.methods e he
    · exact ⟨hname, rfl⟩

theorem Fit.addField (h : ms.Fit c names) {name : String} (hname : name ∈ names)
    (hint value : Option Node) : (ms.addField c name hint value).1.Fit c names := by
  rw [Members.addField]
  split
  · exact h
  · dsimp only
    split
    · exact ⟨h.methods, h.properties, h.fields⟩
    · refine ⟨h.methods, h.properties, fun e he => ?_⟩
      rcases Table.mem_of_mem_insertNew he with he | rfl
      · exact h.fields e he
      · exact ⟨hname, rfl⟩

/-- Names that are stored to are names in the target. -/
theorem storedNames_subset (target : Node) : storedNames target ⊆ target.names := by
  intro id hid
  obtain ⟨n, hn, hid⟩ := List.mem_filterMap.mp hid
  refine Node.names_subset (List.Subset.refl _) hn ?_
  split at hid
  · cases hid
    exact Node.mem_names List.mem_cons_self
  · cases hid

/-- So is the name of a member of the receiver. -/
theorem mem_names_of_receiverMember {receiver : String} {whole : Bool} {n : Node}
    {e : Node × String × Bool}
    (he : (match n with
      | .member _ (.name _ id _) attr .store =>
        if id = receiver then some (n, attr, whole) else none
      | _ => none) = some e) : e.2.1 ∈ n.names := by
  split at he
  · split at he
    · cases he
      exact Node.mem_names List.mem_cons_self
    · cases he
  · cases he

theorem mem_names_of_mem_receiverTargets {receiver : String} {target : Node}
    {e : Node × String × Bool} (he : e ∈ receiverTargets receiver target) :
    e.2.1 ∈ target.names := by
  rw [receiverTargets] at he
  dsimp only at he
  split at he
  · cases he
  · rename_i whole within hbreadth
    have hnames {n : Node} (hn : n ∈ whole :: within) : n.names ⊆ target.names :=
      Node.names_subset (List.Subset.refl _) (hbreadth ▸ hn)
    rcases List.mem_append.mp he with he | he
    · exact hnames List.mem_cons_self (mem_names_of_receiverMember (Option.mem_toList.mp he))
    · obtain ⟨n, hn, he⟩ := List.mem_filterMap.mp he
      exact hnames (List.mem_cons_of_mem _ hn) (mem_names_of_receiverMember he)

/-- The targets of an assignment are parts of it. -/
theorem mem_parts_of_assignmentOf? {n : Node} {targets : List Node} {hint value : Option Node}
    (h : assignmentOf? n = some (targets, hint, value)) : ∀ t ∈ targets, t ∈ n.parts := by
  unfold assignmentOf? at h
  split at h
  · cases h
    simp [Node.parts]
  · cases h
    exact fun t ht => List.mem_append_left _ ht
  · cases h
    simp [Node.parts]
  · cases h
    simp [Node.parts]
  · cases h

section

variable {motive : Members → Prop}
  (hfield : ∀ ms name hint value, name ∈ names → motive ms →
    motive (ms.addField c name hint value).1)

include hfield

theorem addClassField_induction (h : motive ms) {stmt : Node} (hstmt : stmt.names ⊆ names) :
    motive (ms.addClassField c stmt) := by
  rw [Members.addClassField.eq_def]
  split
  · rename_i targets value
    dsimp only
    refine List.foldlRecOn _ _ (motive := motive) h fun ms hms id hid => ?_
    obtain ⟨target, htarget, hid⟩ := List.mem_flatMap.mp hid
    have hpart := Node.names_subset_of_mem_parts hstmt (List.mem_append_left _ htarget)
    exact hfield ms id _ _ (hpart (storedNames_subset target hid)) hms
  · rename_i p id use hint value
    have hpart := Node.names_subset_of_mem_parts hstmt List.mem_cons_self
    exact hfield ms id _ _ (hpart (Node.mem_names List.mem_cons_self)) h
  · exact h

theorem addAssignment_induction {acc : Members × List FieldSite} (h : motive acc.1) {n : Node}
    (hn : n.names ⊆ names) (receiver : String) (hints : Table String Node) :
    motive (Members.addAssignment c receiver hints acc n).1 := by
  rw [Members.addAssignment]
  split
  · exact h
  · rename_i targets hint value hassignment
    dsimp only
    refine List.foldlRecOn _ _ (motive := fun acc : Members × List FieldSite => motive acc.1) h
      fun acc hacc e he => ?_
    obtain ⟨target, htarget, he⟩ := List.mem_flatMap.mp he
    have hpart := Node.names_subset_of_mem_parts hn
      (mem_parts_of_assignmentOf? hassignment target htarget)
    exact hfield acc.1 _ _ _ (hpart (mem_names_of_mem_receiverTargets he)) hacc

theorem addInstanceFields_induction {acc : Members × List FieldSite} (h : motive acc.1)
    {stmt : Node} (hstmt : stmt.names ⊆ names) :
    motive (Members.addInstanceFields c acc stmt).1 := by
  rw [Members.addInstanceFields.eq_def]
  split
  · split
    · exact h
    · refine List.foldlRecOn _ _ (motive := fun acc : Members × List FieldSite => motive acc.1) h
        fun acc hacc n hn => ?_
      exact addAssignment_induction hfield hacc (Node.names_subset hstmt hn) _ _
  · exact h

/-- The functions of a body come before its fields. What each function keeps is known when the first
field is come to; what is known then and each field keeps is known of the members of the body. -/
theorem ofBody_induction (stage : Members → Prop) (hempty : stage {})
    (hfunction : ∀ ms name decorators result, name ∈ names → stage ms →
      stage (ms.addFunction c name decorators result))
    (hstage : ∀ ms, stage ms → motive ms) {body : List Node}
    (h : ∀ stmt ∈ body, stmt.names ⊆ names) : motive (ofBody c body).1 := by
  rw [ofBody]
  refine List.foldlRecOn _ _ (motive := fun acc : Members × List FieldSite => motive acc.1) ?_
    fun acc hacc stmt hstmt => addInstanceFields_induction hfield hacc (h stmt hstmt)
  refine List.foldlRecOn _ _ (motive := motive) ?_ fun ms hms stmt hstmt =>
    addClassField_induction hfield hms (h stmt hstmt)
  refine hstage _ (List.foldlRecOn _ _ (motive := stage) hempty fun ms hms stmt hstmt => ?_)
  split
  · exact hfunction ms _ _ _ (h _ hstmt (Node.mem_names List.mem_cons_self)) hms
  · exact hms

end

/-- The members that a body declares. -/
theorem fit_ofBody (c : ClassName) (body : List Node) :
    (ofBody c body).1.Fit c (body.flatMap Node.names) :=
  ofBody_induction (motive := Fit c _)
    (fun _ _ hint value hname hms => hms.addField hname hint value) (Fit c _) (fit_empty c _)
    (fun _ _ decorators result hname hms => hms.addFunction hname decorators result)
    (fun _ hms => hms) fun _ => Node.names_subset_flatMap

end Members

/-! ### Classes -/

/-- What is known of the symbol of a class, where `all` are the classes it is declared with: its
members are named by words, those of them that are types are classes again, and what is found under
a name is one of them. -/
structure ClassDecl.Sound (all : List ClassDecl) (d : ClassDecl) : Prop where
  kind : d.symbol.kind = .type
  name : IsWord d.symbol.name
  member : ∀ s ∈ d.symbol.members, IsWord s.name ∧ (s.kind = .type → ∃ d' ∈ all, d'.symbol = s)
  own : ∀ name s, d.ownMember? name = some s → s ∈ d.symbol.members

theorem ClassDecl.Sound.mono {all all' : List ClassDecl} {d : ClassDecl} (h : d.Sound all)
    (hall : all ⊆ all') : d.Sound all' :=
  ⟨h.kind, h.name, fun s hs => (h.member s hs).imp_right fun htype hkind =>
    (htype hkind).imp fun _ => And.imp_left (@hall _), h.own⟩

/-- What is known of a class statement: it is one of the classes declared by it, all of which are as
they should be, and these are the types that its symbol holds. -/
structure Extracted.Sound (x : Extracted) : Prop where
  own : x.own ∈ x.all
  classes : ∀ d ∈ x.all, d.Sound x.all
  walk : ∀ s, s.kind = .type → (s ∈ x.own.symbol.walk ↔ ∃ d ∈ x.all, d.symbol = s)

/-- Where a class finds what it finds under a name. -/
theorem ClassDecl.find?_of_ownMember? {d : ClassDecl} {name : String} {s : Symbol}
    (h : d.ownMember? name = some s) :
    d.methods.find? name = some s ∨ d.properties.find? name = some s ∨
      d.fields.find? name = some s ∨ ∃ p, d.nested.find? name = some (p, s) := by
  simp only [ownMember?, Option.or_eq_some_iff] at h
  rcases h with h | ⟨-, h | ⟨-, h | ⟨-, h⟩⟩⟩
  · exact .inl h
  · exact .inr (.inl h)
  · exact .inr (.inr (.inl h))
  · obtain ⟨e, he, rfl⟩ := Option.map_eq_some_iff.mp h
    exact .inr (.inr (.inr ⟨e.1, he⟩))

/-- A member that is no class holds no types. -/
structure Symbol.IsPlain (s : Symbol) : Prop where
  name : IsWord s.name
  walk : ∀ t ∈ s.walk, t.kind ≠ .type

namespace ClassName

variable (c : ClassName) {name : String}

theorem isPlain_method (h : IsWord name) : (c.method name).IsPlain :=
  ⟨h, by simp [method, Symbol.walk, Symbol.kind]⟩

theorem isPlain_field (h : IsWord name) : (c.field name).IsPlain :=
  ⟨h, by simp [field, Symbol.walk, Symbol.kind]⟩

theorem isPlain_property (h : IsWord name) (getter setter : Bool) :
    (c.property name getter setter).IsPlain :=
  ⟨h, by cases getter <;> cases setter <;> simp [property, accessor, Symbol.walk, Symbol.kind]⟩

end ClassName

namespace Extracted

/-- The entry of a class among those next to it. -/
def entry (x : Extracted) : String × Position × Symbol :=
  (x.own.symbol.name, x.own.position, x.own.symbol)

variable {c : ClassName} {p : Position} {bases body : List Node} {nested : List Extracted}

theorem members_of (c : ClassName) (p : Position) (bases body : List Node)
    (nested : List Extracted) :
    (Extracted.of c p bases body nested).own.symbol.members =
      (Extracted.of c p bases body nested).own.methods.entries ++
        (Extracted.of c p bases body nested).own.properties.entries ++
          (Extracted.of c p bases body nested).own.fields.entries ++
            nested.map fun x => x.own.symbol :=
  rfl

/-- The members of a class are plain ones and the classes directly within it. -/
theorem isPlain_or_mem_nested (hbody : ∀ n ∈ body, n.Written []) :
    ∀ s ∈ (Extracted.of c p bases body nested).own.symbol.members,
      s.IsPlain ∨ ∃ x ∈ nested, x.own.symbol = s := by
  have hfit := Members.fit_ofBody c body
  have hword := Node.isWord_of_mem_names hbody
  intro s hs
  rw [members_of, List.mem_append, List.mem_append, List.mem_append] at hs
  rcases hs with ((hs | hs) | hs) | hs
  · obtain ⟨e, he, rfl⟩ := List.mem_map.mp hs
    obtain ⟨hname, hsymbol⟩ := hfit.methods e he
    exact .inl (hsymbol ▸ c.isPlain_method (hword _ hname))
  · obtain ⟨e, he, rfl⟩ := List.mem_map.mp hs
    obtain ⟨name, hname, rfl⟩ := List.mem_map.mp he
    exact .inl (c.isPlain_property (hword _ (hfit.properties name hname)) _ _)
  · obtain ⟨e, he, rfl⟩ := List.mem_map.mp hs
    obtain ⟨hname, hsymbol⟩ := hfit.fields e he
    exact .inl (hsymbol ▸ c.isPlain_field (hword _ hname))
  · exact .inr (List.mem_map.mp hs)

/-- What stands in the table of a class is one of the classes within it. -/
theorem exists_mem_of_find?_nested {name : String} {q : Position} {s : Symbol}
    (h : (Extracted.of c p bases body nested).own.nested.find? name = some (q, s)) :
    ∃ x ∈ nested, x.own.position = q ∧ x.own.symbol = s := by
  obtain ⟨before, x, after, rfl, heq, -⟩ := ((Table.mem_foldl_insert Extracted.entry _).2 _).mp
    (Table.mem_of_find? h)
  cases heq
  exact ⟨x, by simp, rfl, rfl⟩

/-- What a class finds under a name is a member of its symbol. -/
theorem mem_members_of_ownMember? {name : String} {s : Symbol}
    (h : (Extracted.of c p bases body nested).own.ownMember? name = some s) :
    s ∈ (Extracted.of c p bases body nested).own.symbol.members := by
  rw [members_of, List.mem_append, List.mem_append, List.mem_append]
  have hentries {t : Table String Symbol} (ht : t.find? name = some s) : s ∈ t.entries :=
    List.mem_map.mpr ⟨_, Table.mem_of_find? ht, rfl⟩
  rcases ClassDecl.find?_of_ownMember? h with h | h | h | ⟨q, h⟩
  · exact .inl (.inl (.inl (hentries h)))
  · exact .inl (.inl (.inr (hentries h)))
  · exact .inl (.inr (hentries h))
  · obtain ⟨x, hx, -, hsymbol⟩ := exists_mem_of_find?_nested h
    exact .inr (List.mem_map.mpr ⟨x, hx, hsymbol⟩)

theorem all_of (c : ClassName) (p : Position) (bases body : List Node)
    (nested : List Extracted) :
    (Extracted.of c p bases body nested).all =
      nested.flatMap Extracted.all ++ [(Extracted.of c p bases body nested).own] :=
  rfl

theorem mem_all_of {d : ClassDecl} : d ∈ (Extracted.of c p bases body nested).all ↔
    (∃ y ∈ nested, d ∈ y.all) ∨ d = (Extracted.of c p bases body nested).own := by
  rw [all_of, List.mem_append, List.mem_flatMap, List.mem_singleton]

theorem walk_of (c : ClassName) (p : Position) (bases body : List Node)
    (nested : List Extracted) :
    (Extracted.of c p bases body nested).own.symbol.walk =
      (Extracted.of c p bases body nested).own.symbol ::
        (Extracted.of c p bases body nested).own.symbol.members.flatMap Symbol.walk := by
  show Symbol.walk (.type _ _) = _
  rw [Symbol.walk, Symbol.walkAll_eq_flatMap]
  rfl

/-- A class statement put together from its body and the classes within it. -/
theorem sound_of (hname : IsWord c.name) (hbody : ∀ n ∈ body, n.Written [])
    (hnested : ∀ x ∈ nested, x.Sound) : (Extracted.of c p bases body nested).Sound := by
  set x := Extracted.of c p bases body nested with hx
  have hall : ∀ d, d ∈ x.all ↔ (∃ y ∈ nested, d ∈ y.all) ∨ d = x.own := fun d => mem_all_of
  have hmember : ∀ s ∈ x.own.symbol.members, s.kind = .type → ∃ y ∈ nested, y.own.symbol = s := by
    intro s hs hkind
    refine (isPlain_or_mem_nested hbody s hs).resolve_left fun hplain => ?_
    exact hplain.walk s (by cases s <;> simp [Symbol.walk]) hkind
  refine ⟨(hall _).mpr (.inr rfl), fun d hd => ?_, fun s hkind => ?_⟩
  · rcases (hall d).mp hd with ⟨y, hy, hd⟩ | rfl
    · exact ((hnested y hy).classes d hd).mono fun d' hd' => (hall d').mpr (.inl ⟨y, hy, hd'⟩)
    · refine ⟨rfl, hname, fun s hs => ⟨?_, fun hkind => ?_⟩,
        fun name s => mem_members_of_ownMember?⟩
      · rcases isPlain_or_mem_nested hbody s hs with hplain | ⟨y, hy, rfl⟩
        · exact hplain.name
        · exact ((hnested y hy).classes _ (hnested y hy).own).name
      · obtain ⟨y, hy, rfl⟩ := hmember s hs hkind
        exact ⟨y.own, (hall _).mpr (.inl ⟨y, hy, (hnested y hy).own⟩), rfl⟩
  · rw [hx, walk_of, ← hx, List.mem_cons, List.mem_flatMap]
    constructor
    · rintro (rfl | ⟨t, ht, hs⟩)
      · exact ⟨x.own, (hall _).mpr (.inr rfl), rfl⟩
      · rcases isPlain_or_mem_nested hbody t ht with hplain | ⟨y, hy, rfl⟩
        · exact absurd hkind (hplain.walk s hs)
        · obtain ⟨d, hd, rfl⟩ := ((hnested y hy).walk s hkind).mp hs
          exact ⟨d, (hall d).mpr (.inl ⟨y, hy, hd⟩), rfl⟩
    · rintro ⟨d, hd, rfl⟩
      rcases (hall d).mp hd with ⟨y, hy, hd⟩ | rfl
      · refine .inr ⟨y.own.symbol, ?_, ((hnested y hy).walk _ hkind).mpr ⟨d, hd, rfl⟩⟩
        rw [hx, members_of]
        exact List.mem_append_right _ (List.mem_map.mpr ⟨y, hy, rfl⟩)
      · exact .inl rfl

end Extracted

/-- What is known of a class statement with regard to those within it is known of all that are
written with words. -/
theorem extractClass_written_induction {m : SourceModule} {motive : Extracted → Prop}
    (h : ∀ c p bases body nested, IsWord c.name → (∀ n ∈ body, n.Written []) →
      (∀ x ∈ nested, motive x) → motive (.of c p bases body nested))
    {n : Node} (hn : n.Written []) {container : Option String} {x : Extracted}
    (hx : extractClass m container n = some x) : motive x := by
  revert hn
  refine extractClass_induction ?_ n container x hx
  intro container p name bases keywords body decorators hnested hn
  have hbody : ∀ s ∈ body, s.Written [] := fun s hs => hn.of_mem (by simp [Node.parts, hs])
  refine h _ _ bases body _ (hn.isWord _ List.mem_cons_self) hbody fun y hy => ?_
  obtain ⟨s, hs, hy⟩ := mem_extractClasses.mp hy
  exact hnested s hs y hy (hbody s hs)

/-! ### Modules -/

/-- There is no colon in the names of classes that are read. -/
theorem colon_notMem_of_parseModule {source : String} {body : List Node}
    (h : parseModule source = .ok body) :
    ∀ s ∈ moduleStatements body, ∀ name ∈ s.classNames, ':' ∉ name.toList := by
  intro s hs name hname
  exact (isWord_of_parseModule h s hs name hname).separator_notMem rfl

namespace SourceModule

/-- The class statements of a module as they are extracted. -/
def statements (m : SourceModule) : List Extracted :=
  (moduleStatements m.body).filterMap (extractClass m none)

/-- A class statement of a module that no later one of its name replaces. -/
def Stands (m : SourceModule) (x : Extracted) : Prop :=
  ∃ before after, m.statements = before ++ x :: after ∧
    ∀ y ∈ after, y.own.symbol.name ≠ x.own.symbol.name

/-- The types that a module declares at its level are those of the statements that stand. -/
theorem mem_typeSymbols {m : SourceModule} {s : Symbol} :
    s ∈ (extractModule m).typeSymbols ↔ ∃ x, m.Stands x ∧ x.own.symbol = s := by
  have hentries := (Table.mem_foldl_insert Extracted.entry m.statements).2
  constructor
  · intro hs
    obtain ⟨e, he, rfl⟩ := List.mem_map.mp hs
    obtain ⟨before, x, after, hx, rfl, hafter⟩ := (hentries e).mp he
    exact ⟨x, ⟨before, after, hx, hafter⟩, rfl⟩
  · rintro ⟨x, ⟨before, after, hx, hafter⟩, rfl⟩
    exact List.mem_map.mpr ⟨x.entry, (hentries _).mpr ⟨before, x, after, hx, rfl, hafter⟩, rfl⟩

theorem Stands.mem {m : SourceModule} {x : Extracted} (h : m.Stands x) : x ∈ m.statements := by
  obtain ⟨before, after, hx, -⟩ := h
  simp [hx]

theorem statements_induction {m : SourceModule} (hm : ∀ n ∈ m.body, n.Written [])
    {motive : Extracted → Prop}
    (h : ∀ c p bases body nested, IsWord c.name → (∀ n ∈ body, n.Written []) →
      (∀ x ∈ nested, motive x) → motive (.of c p bases body nested)) :
    ∀ x ∈ m.statements, motive x := by
  intro x hx
  obtain ⟨n, hn, hx⟩ := List.mem_filterMap.mp hx
  exact extractClass_written_induction h (Node.written_moduleStatements m.body hm n hn) hx

theorem sound_of_mem_statements {m : SourceModule} (h : ∀ n ∈ m.body, n.Written []) :
    ∀ x ∈ m.statements, x.Sound :=
  statements_induction h fun _ _ _ _ _ => Extracted.sound_of

/-- The classes of a module that is read. -/
theorem sound_of_mem_classes {m : SourceModule} (h : ∀ n ∈ m.body, n.Written []) :
    ∀ d ∈ (extractModule m).classes, d.Sound (extractModule m).classes := by
  intro d hd
  obtain ⟨x, hx, hd⟩ := List.mem_flatMap.mp hd
  refine ((sound_of_mem_statements h x hx).classes d hd).mono fun d' hd' => ?_
  exact List.mem_flatMap.mpr ⟨x, hx, hd'⟩

end SourceModule

end Concordance
