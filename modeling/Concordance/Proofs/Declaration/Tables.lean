import Concordance.Proofs.Declaration.Distinct

/-!
# Tables of members

The members of a class are collected in three passes, and several tables are filled on the way: the
symbols of methods and fields, the names of properties, and hints and values under the names they
are for. Which table a name goes into depends on decorators and on what earlier passes have found,
so that the tables agree is an invariant of the collection. Before the fields are come to it says
more: no field is there yet, and a hint that is no result is that of a property.

## Main definitions

* `Members.Separate`: tables of members that agree while they are collected
* `ClassDecl.Consistent`: tables of a declared class that agree with one another and its symbol

## Main results

* `Members.separate_ofBody`: the members of a body
* `Extracted.membersNamed_of`: what the symbol of a class finds under a name
* `exists_consistent_extractClass`: every class statement
-/

namespace Concordance

open Syntax

namespace Table

variable {κ α : Type} [DecidableEq κ]

theorem mem_keys_insertNew {key key' : κ} {a : α} {t : Table κ α} :
    key' ∈ (t.insertNew key a).map Prod.fst ↔ key' = key ∨ key' ∈ t.map Prod.fst := by
  rw [insertNew]
  split
  · rename_i hkey
    refine ⟨.inr, fun h => h.elim (fun heq => ?_) id⟩
    exact heq ▸ has_iff.mp hkey
  · simp [or_comm]

/-- When things are entered one after the other, the last one of a key is found. -/
theorem find?_foldl_insert {β : Type} (entry : β → κ × α) (l : List β) (key : κ) :
    (l.foldl (fun t b => Table.insert (entry b).1 (entry b).2 t) []).find? key =
      ((l.filter fun b => (entry b).1 = key).getLast?).map fun b => (entry b).2 := by
  induction l using List.reverseRecOn with
  | nil => rfl
  | append_singleton l last ih =>
    rw [List.foldl_concat, find?_insert, ih, List.filter_append]
    split
    · rename_i hkey
      simp [hkey]
    · rename_i hkey
      simp [hkey]

end Table

namespace Members

theorem mem_addName {name name' : String} {names : List String} :
    name' ∈ addName name names ↔ name' = name ∨ name' ∈ names := by
  rw [addName]
  split
  · rename_i hname
    refine ⟨.inr, fun h => h.elim (fun heq => ?_) id⟩
    simpa [heq] using hname
  · simp [or_comm]

/-- What is noted under a name is noted for it, or was there before. -/
theorem mem_keys_note {name name' : String} {n : Option Node} {t : Table String Node}
    (h : name' ∈ (note name n t).map Prod.fst) : name' = name ∨ name' ∈ t.map Prod.fst := by
  unfold note at h
  split at h
  · exact Table.mem_keys_insertNew.mp h
  · exact .inr h

/-! ### While members are collected -/

/-- Tables of members that agree: a name is that of a function or of a field, but not of both, the
values are those of fields, the hints those of fields and properties, and the results those of
methods. -/
structure Separate (ms : Members) : Prop where
  fields : ∀ name ∈ ms.fields.map Prod.fst,
    name ∉ ms.methods.map Prod.fst ∧ name ∉ ms.properties
  values : ∀ name ∈ ms.values.map Prod.fst, name ∈ ms.fields.map Prod.fst
  annotations : ∀ name ∈ ms.annotations.map Prod.fst,
    name ∈ ms.fields.map Prod.fst ∨ name ∈ ms.properties
  returns : ∀ name ∈ ms.returns.map Prod.fst, name ∈ ms.methods.map Prod.fst

variable {c : ClassName} {ms : Members}

/-- Functions are collected before there are fields. What they bring are properties and methods with
their hints. -/
theorem Separate.addFunction (h : ms.Separate) (hfields : ms.fields = []) (name : String)
    (decorators : List Node) (result : Option Node) :
    (ms.addFunction c name decorators result).Separate ∧
      (ms.addFunction c name decorators result).fields = [] := by
  have hnone : ∀ other, other ∉ ms.fields.map Prod.fst := by simp [hfields]
  have hvalues : ∀ other ∈ ms.values.map Prod.fst, other ∈ ms.fields.map Prod.fst := h.values
  have hannotations {other : String} (hother : other ∈ ms.annotations.map Prod.fst) :
      other ∈ ms.properties := (h.annotations other hother).resolve_left (hnone other)
  rw [Members.addFunction]
  split
  · refine ⟨⟨fun other hother => absurd hother (hnone other), hvalues, fun other hother => ?_,
      h.returns⟩, hfields⟩
    exact .inr (mem_addName.mpr ((mem_keys_note hother).imp_right hannotations))
  · refine ⟨⟨fun other hother => absurd hother (hnone other), hvalues, fun other hother => ?_,
      h.returns⟩, hfields⟩
    exact .inr (mem_addName.mpr (.inr (hannotations hother)))
  · exact ⟨h, hfields⟩
  · refine ⟨⟨fun other hother => absurd hother (hnone other), hvalues, h.annotations,
      fun other hother => ?_⟩, hfields⟩
    exact Table.mem_keys_insertNew.mpr ((mem_keys_note hother).imp_right (h.returns other))

/-- A field is collected only if no function has its name, and a hint or value only for it. -/
theorem Separate.addField (h : ms.Separate) (name : String) (hint value : Option Node) :
    (ms.addField c name hint value).1.Separate := by
  rw [Members.addField]
  split
  · exact h
  · rename_i hfunction
    have hnew : name ∉ ms.methods.map Prod.fst ∧ name ∉ ms.properties := by
      simpa [← Table.has_iff] using hfunction
    dsimp only
    split
    · rename_i hfield
      have hfield : name ∈ ms.fields.map Prod.fst := Table.has_iff.mp hfield
      refine ⟨h.fields, fun other hother => ?_, fun other hother => ?_, h.returns⟩
      · rcases mem_keys_note hother with rfl | hother
        · exact hfield
        · exact h.values other hother
      · rcases mem_keys_note hother with rfl | hother
        · exact .inl hfield
        · exact h.annotations other hother
    · refine ⟨fun other hother => ?_, fun other hother => ?_, fun other hother => ?_, h.returns⟩
      · rcases Table.mem_keys_insertNew.mp hother with rfl | hother
        · exact hnew
        · exact h.fields other hother
      · exact Table.mem_keys_insertNew.mpr ((mem_keys_note hother).imp_right (h.values other))
      · rw [Table.mem_keys_insertNew, or_assoc]
        exact (mem_keys_note hother).imp_right (h.annotations other)

/-- The members that a body declares. -/
theorem separate_ofBody (c : ClassName) (body : List Node) : (ofBody c body).1.Separate :=
  ofBody_induction (motive := Separate)
    (fun _ name hint value _ hms => hms.addField name hint value)
    (fun ms => ms.Separate ∧ ms.fields = []) ⟨⟨nofun, nofun, nofun, nofun⟩, rfl⟩
    (fun _ name decorators result _ hms => hms.1.addFunction hms.2 name decorators result)
    (fun _ hms => hms.1) fun _ => Node.names_subset_flatMap

end Members

/-! ### Declared classes -/

namespace ClassDecl

/-- The table in which a class has its members of a kind. -/
def table (d : ClassDecl) : MemberKind → Table String Symbol
  | .method => d.methods
  | .property => d.properties
  | .field => d.fields

/-- The tables of a declared class agree with one another and with its symbol; `types` are the
symbols of the class statements directly in its body, in order. -/
structure Consistent (types : List Symbol) (d : ClassDecl) : Prop where
  /-- A field has the name of no method and no property. -/
  fields : ∀ name ∈ d.fields.map Prod.fst,
    name ∉ d.methods.map Prod.fst ∧ name ∉ d.properties.map Prod.fst
  values : ∀ name ∈ d.values.map Prod.fst, name ∈ d.fields.map Prod.fst
  returns : ∀ name ∈ d.returns.map Prod.fst, name ∈ d.methods.map Prod.fst
  annotations : ∀ name ∈ d.annotations.map Prod.fst,
    name ∈ d.fields.map Prod.fst ∨ name ∈ d.properties.map Prod.fst
  members : d.symbol.members =
    d.methods.entries ++ d.properties.entries ++ d.fields.entries ++ types
  /-- Under a name there is one symbol of each kind at most: the one that the table has. -/
  named : ∀ (kind : MemberKind) (name : String),
    d.symbol.membersNamed name (some kind.toSymbolKind) = .ok ((d.table kind).find? name).toList
  /-- Of the types of one name the last one is looked up. -/
  nested : ∀ name, (d.nested.find? name).map Prod.snd =
    (types.filter fun s => s.name = name).getLast?

/-- A table of members of one kind: no name comes twice, and each stands for the symbol it is the
name of. -/
structure Holds (kind : SymbolKind) (t : Table String Symbol) : Prop where
  distinct : (t.map Prod.fst).Nodup
  entry : ∀ e ∈ t, e.2.kind = kind ∧ e.2.name = e.1

/-- Among the symbols of such a table those of a name and this kind are the one that is found under
the name. -/
theorem Holds.filter_entries {kind : SymbolKind} {t : Table String Symbol} (h : Holds kind t)
    (name : String) :
    (t.entries.filter fun s => some s.kind = some kind && s.name = name) =
      (t.find? name).toList := by
  induction t with
  | nil => rfl
  | cons e rest ih =>
    obtain ⟨key, s⟩ := e
    obtain ⟨hfirst, hrest⟩ := List.nodup_cons.mp h.distinct
    obtain ⟨hkind, hname⟩ := h.entry _ List.mem_cons_self
    have hkind : s.kind = kind := hkind
    have hname : s.name = key := hname
    have ih := ih ⟨hrest, fun e he => h.entry e (List.mem_cons_of_mem _ he)⟩
    rw [Table.entries, List.map_cons]
    rw [Table.entries] at ih
    by_cases hkey : key = name
    · have hnone : Table.find? name rest = none := by
        rw [← Option.not_isSome_iff_eq_none]
        exact fun hhas => hfirst (hkey ▸ Table.has_iff.mp hhas)
      rw [List.filter_cons_of_pos (by simp [hkind, hname, hkey]), ih, hnone, Table.find?,
        if_pos hkey]
      rfl
    · rw [List.filter_cons_of_neg (by simp [hname, hkey]), ih, Table.find?, if_neg hkey]

/-- Symbols of other kinds are not asked for. -/
theorem filter_eq_nil_of_kind {kind : SymbolKind} {symbols : List Symbol}
    (h : ∀ s ∈ symbols, s.kind ≠ kind) (name : String) :
    (symbols.filter fun s => some s.kind = some kind && s.name = name) = [] :=
  List.filter_eq_nil_iff.mpr fun s hs => by simp [h s hs]

theorem Holds.filter_entries_of_ne {kind kind' : SymbolKind} {t : Table String Symbol}
    (h : Holds kind t) (hkind : kind ≠ kind') (name : String) :
    (t.entries.filter fun s => some s.kind = some kind' && s.name = name) = [] := by
  refine filter_eq_nil_of_kind (fun s hs => ?_) name
  obtain ⟨e, he, rfl⟩ := List.mem_map.mp hs
  rw [(h.entry e he).1]
  exact hkind

end ClassDecl

namespace Extracted

variable (c : ClassName) (p : Position) (bases body : List Node) (nested : List Extracted)

theorem map_fst_properties_of :
    (Extracted.of c p bases body nested).own.properties.map Prod.fst =
      (Members.ofBody c body).1.properties := by
  show List.map Prod.fst (List.map _ _) = _
  rw [List.map_map]
  exact List.map_id _

/-- The tables of a class hold members of their kinds. -/
theorem holds_of (kind : MemberKind) :
    ClassDecl.Holds kind.toSymbolKind ((Extracted.of c p bases body nested).own.table kind) := by
  have hfit := Members.fit_ofBody c body
  have hapart := Members.apart_ofBody c body
  cases kind with
  | method => exact ⟨hapart.methods, fun e he => by rw [(hfit.methods e he).2]; exact ⟨rfl, rfl⟩⟩
  | field => exact ⟨hapart.fields, fun e he => by rw [(hfit.fields e he).2]; exact ⟨rfl, rfl⟩⟩
  | property =>
    refine ⟨?_, fun e he => ?_⟩
    · rw [ClassDecl.table, map_fst_properties_of]
      exact hapart.properties
    · obtain ⟨name, -, rfl⟩ := List.mem_map.mp he
      exact ⟨rfl, rfl⟩

/-- What the symbol of a class finds under a name is what the table of the kind has. -/
theorem membersNamed_of (hnested : ∀ x ∈ nested, x.own.symbol.kind = .type) (kind : MemberKind)
    (name : String) :
    (Extracted.of c p bases body nested).own.symbol.membersNamed name (some kind.toSymbolKind) =
      .ok (((Extracted.of c p bases body nested).own.table kind).find? name).toList := by
  set d := (Extracted.of c p bases body nested).own with hd
  have hholds : ∀ kind, ClassDecl.Holds kind.toSymbolKind (d.table kind) :=
    holds_of c p bases body nested
  have htypes : (nested.map fun x => x.own.symbol).filter
      (fun s => some s.kind = some kind.toSymbolKind && s.name = name) = [] := by
    refine ClassDecl.filter_eq_nil_of_kind (fun s hs => ?_) name
    obtain ⟨x, hx, rfl⟩ := List.mem_map.mp hs
    rw [hnested x hx]
    cases kind <;> decide
  have hother (kind' : MemberKind) (hne : kind'.toSymbolKind ≠ kind.toSymbolKind) :
      (d.table kind').entries.filter
        (fun s => some s.kind = some kind.toSymbolKind && s.name = name) = [] :=
    (hholds kind').filter_entries_of_ne hne name
  have hmembers : d.symbol.membersNamed name (some kind.toSymbolKind) =
      .ok (((d.table .method).entries ++ (d.table .property).entries ++ (d.table .field).entries ++
        nested.map fun x => x.own.symbol).filter
          fun s => some s.kind = some kind.toSymbolKind && s.name = name) := rfl
  rw [hmembers, ← (hholds kind).filter_entries name, List.filter_append, List.filter_append,
    List.filter_append, htypes, List.append_nil]
  cases kind with
  | method =>
    rw [hother .property (by decide), hother .field (by decide)]
    simp
  | property =>
    rw [hother .method (by decide), hother .field (by decide)]
    simp
  | field =>
    rw [hother .method (by decide), hother .property (by decide)]
    simp

theorem consistent_of (hnested : ∀ x ∈ nested, x.own.symbol.kind = .type) :
    (Extracted.of c p bases body nested).own.Consistent (nested.map fun x => x.own.symbol) := by
  have hseparate := Members.separate_ofBody c body
  have hproperties := map_fst_properties_of c p bases body nested
  refine ⟨fun name hname => ?_, hseparate.values, hseparate.returns, fun name hname => ?_,
    members_of c p bases body nested, membersNamed_of c p bases body nested hnested,
    fun name => ?_⟩
  · rw [hproperties]
    exact hseparate.fields name hname
  · rw [hproperties]
    exact hseparate.annotations name hname
  · refine (congrArg (Option.map Prod.snd) (Table.find?_foldl_insert entry nested name)).trans ?_
    rw [Option.map_map, List.filter_map, List.getLast?_map]
    rfl

end Extracted

theorem kind_of_extractClass {m : SourceModule} {container : Option String} {n : Node}
    {x : Extracted} (h : extractClass m container n = some x) : x.own.symbol.kind = .type :=
  extractClass_induction (fun _ _ _ _ _ _ _ _ => rfl) n container x h

/-- **The tables of every class statement are consistent**, in whatever order and how often its
members are declared: no field has the name of a method or property, values are those of fields,
results those of methods, and hints those of fields and properties. Its symbol holds the methods,
the properties, the fields and the types of the class statements directly in its body, in this order
and no others, and finds one symbol of each other kind under a name at most. -/
theorem exists_consistent_extractClass (m : SourceModule) (container : Option String)
    (place : Place) (name : String) (bases keywords body decorators : List Node) :
    ∃ x, extractClass m container (.classDef place name bases keywords body decorators) = some x ∧
      x.own.Consistent (body.filterMap fun n =>
        (extractClass m (some (ClassName.of m name container).qualified) n).map
          fun y => y.own.symbol) := by
  rw [extractClass]
  refine ⟨_, rfl, ?_⟩
  rw [← List.map_filterMap, ← extractClasses_eq]
  refine Extracted.consistent_of _ _ _ _ _ fun x hx => ?_
  obtain ⟨n, -, hn⟩ := mem_extractClasses.mp hx
  exact kind_of_extractClass hn

end Concordance
