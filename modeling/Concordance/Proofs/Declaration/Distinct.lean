import Concordance.Proofs.Binding.Provenance

/-!
# Distinct ids within a module

The id of a symbol says where it stands: the names of the classes around it, its own name, and for a
member what kind of member it is. So two symbols of a module have the same id only if they stand in
the same place. Members that are declared again are collapsed, each kind by its own rule, and so are
the classes of the module level. The classes within a class are not: its symbol holds one member
for each class statement in its body, so one that is declared again leaves its id twice.

So the ids that are met in the types of a module are distinct if and only if no class that is seen
has two class statements of one name directly in its body.

## Main definitions

* `Members.Apart`: members whose names are told apart
* `Address`, `Syntax.Node.addresses`: where the symbols of a class statement stand
* `Syntax.Node.NestsOnce`: no class within a class statement is declared again

## Main results

* `map_id_walk`: the ids of a class statement are those of its addresses
* `SourceModule.nodup_walk_iff`: when those of one class are distinct
* `SourceModule.nodup_ids_iff`: when those of a module are
-/

namespace Concordance

open Syntax Binding

/-! ### Members that are told apart -/

theorem Table.nodup_insertNew {κ α : Type} [DecidableEq κ] {key : κ} {a : α} {t : Table κ α}
    (h : (t.map Prod.fst).Nodup) : ((t.insertNew key a).map Prod.fst).Nodup := by
  rw [insertNew]
  split
  · exact h
  · rename_i hnew
    rw [List.map_append, List.nodup_append']
    refine ⟨h, List.nodup_singleton _, ?_⟩
    rw [List.map_singleton, List.disjoint_singleton]
    exact fun hmem => hnew (has_iff.mpr hmem)

namespace Members

/-- Each name is that of one method, of one property and of one field at most. -/
structure Apart (ms : Members) : Prop where
  methods : (ms.methods.map Prod.fst).Nodup
  properties : ms.properties.Nodup
  fields : (ms.fields.map Prod.fst).Nodup

variable {c : ClassName} {ms : Members}

theorem apart_empty : Apart {} := ⟨List.nodup_nil, List.nodup_nil, List.nodup_nil⟩

theorem nodup_addName {name : String} {names : List String} (h : names.Nodup) :
    (addName name names).Nodup := by
  rw [addName]
  split
  · exact h
  · rename_i hnew
    rw [List.nodup_append', List.disjoint_singleton]
    exact ⟨h, List.nodup_singleton _, by simpa using hnew⟩

theorem Apart.addFunction (h : ms.Apart) (name : String) (decorators : List Node)
    (result : Option Node) : (ms.addFunction c name decorators result).Apart := by
  rw [Members.addFunction]
  split
  · exact ⟨h.methods, nodup_addName h.properties, h.fields⟩
  · exact ⟨h.methods, nodup_addName h.properties, h.fields⟩
  · exact h
  · exact ⟨Table.nodup_insertNew h.methods, h.properties, h.fields⟩

theorem Apart.addField (h : ms.Apart) (name : String) (hint value : Option Node) :
    (ms.addField c name hint value).1.Apart := by
  rw [Members.addField]
  split
  · exact h
  · dsimp only
    split
    · exact ⟨h.methods, h.properties, h.fields⟩
    · exact ⟨h.methods, h.properties, Table.nodup_insertNew h.fields⟩

/-- The members that a body declares are told apart by kind and name. -/
theorem apart_ofBody (c : ClassName) (body : List Node) : (ofBody c body).1.Apart :=
  ofBody_induction (motive := Apart) (fun _ name hint value _ hms => hms.addField name hint value)
    Apart apart_empty
    (fun _ name decorators result _ hms => hms.addFunction name decorators result)
    (fun _ hms => hms) fun _ => Node.names_subset_flatMap

end Members

/-! ### Addresses -/

/-- Where a symbol of a class statement stands: the names on the way to it, and what its id ends
with if it is no class. -/
structure Address where
  path : List String
  part : Option String

namespace Address

/-- The address of a member of a class. -/
def member (name part : String) : Address := ⟨[name], some part⟩

/-- An address within a class of this name. -/
def within (name : String) (a : Address) : Address := ⟨name :: a.path, a.part⟩

theorem within_injective (name : String) : Function.Injective (within name) := by
  rintro ⟨path, part⟩ ⟨path', part'⟩ h
  simpa [within] using h

/-- The id of what stands at an address behind other names. -/
def id (m : SourceModule) (outer : List String) (a : Address) : String :=
  classId m.project m.name (joinDots (outer ++ a.path)) ++
    (match a.part with
      | none => ""
      | some part => "#" ++ part)

/-- An address is written with words, and what its id ends with has no hash sign. -/
structure Legible (a : Address) : Prop where
  path : ∀ name ∈ a.path, IsWord name
  part : ∀ part ∈ a.part, '#' ∉ part.toList

/-- The names of an address of words can be told from its id. -/
theorem id_inj {m : SourceModule} {outer : List String} (houter : ∀ name ∈ outer, IsWord name)
    {a b : Address} (ha : a.Legible) (hb : b.Legible) (hpath : a.path ≠ []) (hpath' : b.path ≠ [])
    (h : a.id m outer = b.id m outer) : a = b := by
  have hwords {a : Address} (ha : a.Legible) : ∀ name ∈ outer ++ a.path, IsWord name :=
    List.forall_mem_append.mpr ⟨houter, ha.path⟩
  -- names are told apart where no dots are in them
  have hjoin (hjoin : joinDots (outer ++ a.path) = joinDots (outer ++ b.path)) :
      a.path = b.path := by
    have hundotted {a : Address} (ha : a.Legible) : (outer ++ a.path).flatMap splitDots =
        outer ++ a.path :=
      flatMap_splitDots fun name hname => (hwords ha name hname).separator_notMem rfl
    rw [joinDots_eq_iff (by simp [hpath]) (by simp [hpath']), hundotted ha, hundotted hb] at hjoin
    exact List.append_cancel_left hjoin
  have hhash {a : Address} (ha : a.Legible) : '#' ∉ (joinDots (outer ++ a.path)).toList := by
    intro hmem
    rcases mem_joinDots hmem with hdot | ⟨name, hname, hmem⟩
    · exact absurd hdot (by decide)
    · exact (hwords ha name hname).separator_notMem rfl hmem
  obtain ⟨path, part⟩ := a
  obtain ⟨path', part'⟩ := b
  rw [id, id, classId, classId, ← String.toList_inj] at h
  simp only [String.toList_append, List.append_assoc, List.append_cancel_left_eq] at h
  cases part with
  | none =>
    cases part' with
    | none =>
      simp only [String.toList_empty, List.append_nil, String.toList_inj] at h
      obtain rfl : path = path' := hjoin h
      rfl
    | some part' =>
      refine absurd ?_ (hhash ha)
      simp only [String.toList_empty, List.append_nil] at h
      rw [h]
      simp
  | some part =>
    cases part' with
    | none =>
      refine absurd ?_ (hhash hb)
      simp only [String.toList_empty, List.append_nil] at h
      rw [← h]
      simp
    | some part' =>
      have h : (joinDots (outer ++ path)).toList ++ '#' :: part.toList =
          (joinDots (outer ++ path')).toList ++ '#' :: part'.toList := by
        simpa using h
      rw [append_cons_inj (ha.part part rfl) (hb.part part' rfl), String.toList_inj,
        String.toList_inj] at h
      obtain rfl : path = path' := hjoin h.1
      rw [h.2]

end Address

/-- The addresses of a property and its accessors. -/
def Address.ofProperty (name : String) (getter setter : Bool) : List Address :=
  member name "property" :: ((if getter then [member name "get"] else []) ++
    if setter then [member name "set"] else [])

/-- Where the members of a class stand that are no classes. -/
def Members.addresses (ms : Members) : List Address :=
  ms.methods.map (fun e => .member e.1 "method") ++
    ms.properties.flatMap (fun name =>
      Address.ofProperty name (ms.getters.contains name) (ms.setters.contains name)) ++
    ms.fields.map fun e => .member e.1 "field"

namespace Syntax.Node

/-- The name of a class statement. -/
def className? : Node → Option String
  | .classDef _ id .. => some id
  | _ => none

mutual

/-- Where the symbols of a class statement stand, in the order in which they are met. -/
def addresses (m : SourceModule) (container : Option String) : Node → List Address
  | .classDef _ id _ _ body _ =>
    let c := ClassName.of m id container
    (⟨[], none⟩ :: ((Members.ofBody c body).1.addresses ++
      addressesAll m (some c.qualified) body)).map (Address.within id)
  | _ => []

/-- Where the symbols of the class statements directly in a body stand. -/
def addressesAll (m : SourceModule) (container : Option String) : List Node → List Address
  | [] => []
  | n :: rest => n.addresses m container ++ addressesAll m container rest

end

mutual

/-- Within a class statement no class has two class statements of one name directly in its body. -/
def NestsOnce : Node → Prop
  | .classDef _ _ _ _ body _ => (body.filterMap className?).Nodup ∧ NestOnce body
  | _ => True

/-- So it is within each of some statements. -/
def NestOnce : List Node → Prop
  | [] => True
  | n :: rest => n.NestsOnce ∧ NestOnce rest

end

end Syntax.Node

/-! ### The ids of a class statement -/

theorem joinDots_concat {parts : List String} (h : parts ≠ []) (part : String) :
    joinDots (parts ++ [part]) = joinDots parts ++ "." ++ part := by
  induction parts with
  | nil => exact absurd rfl h
  | cons first rest ih =>
    rcases rest with _ | ⟨next, rest⟩
    · simp [joinDots]
    · have hrest := ih (List.cons_ne_nil _ _)
      simp only [List.cons_append, joinDots, String.intercalate_cons_cons] at hrest ⊢
      rw [hrest]
      simp only [String.append_assoc]

/-- The container of what stands behind some names. -/
def containerOf (outer : List String) : Option String :=
  if outer = [] then none else some (joinDots outer)

theorem qualify_containerOf {outer : List String} (houter : ∀ name ∈ outer, IsWord name)
    (name : String) : qualify (containerOf outer) name = joinDots (outer ++ [name]) := by
  rw [containerOf]
  split
  · rename_i hnil
    simp [hnil, qualify, joinDots]
  · rename_i hne
    have hjoined : joinDots outer ≠ "" := by
      intro hempty
      have hparts : outer = [""] := by
        rw [← flatMap_splitDots fun name hname => (houter name hname).separator_notMem rfl,
          ← splitDots_joinDots hne, hempty]
        rfl
      exact (houter "" (by simp [hparts])).ne_empty rfl
    rw [qualify, if_neg hjoined, joinDots_concat hne]

/-- A class is the container of what stands in its body. -/
theorem containerOf_concat {m : SourceModule} {outer : List String}
    (houter : ∀ name ∈ outer, IsWord name) (name : String) :
    containerOf (outer ++ [name]) = some (ClassName.of m name (containerOf outer)).qualified := by
  rw [containerOf.eq_def (outer ++ [name]), if_neg (by simp)]
  exact congrArg some (qualify_containerOf houter name).symm

namespace Address

variable {m : SourceModule} {outer : List String}

theorem id_within (name : String) (a : Address) :
    (within name a).id m outer = a.id m (outer ++ [name]) := by
  rw [id, id, within, List.append_assoc, List.singleton_append]

theorem map_id_within (name : String) (l : List Address) :
    (l.map (within name)).map (id m outer) = l.map (id m (outer ++ [name])) := by
  rw [List.map_map]
  exact List.map_congr_left fun a _ => id_within name a

/-- The id of a member is that of its address behind the names of its class. -/
theorem id_member {c : ClassName} (hid : c.id = classId m.project m.name (joinDots outer))
    (houter : outer ≠ []) (name part : String) (role : Option String) :
    (c.memberLabel name part role).id = (member name part).id m outer := by
  simp only [ClassName.memberLabel, id, member, hid, joinDots_concat houter, classId,
    String.append_assoc]

end Address

/-- The ids of the members of a class that are no classes. -/
theorem map_id_walk_members {c : ClassName} {m : SourceModule} {outer : List String}
    (hid : c.id = classId m.project m.name (joinDots outer)) (houter : outer ≠ [])
    {names : List String} {ms : Members} (hfit : ms.Fit c names) :
    ((ms.methods.entries ++ Table.entries (ms.properties.map fun name => (name,
        c.property name (ms.getters.contains name) (ms.setters.contains name))) ++
      ms.fields.entries).flatMap Symbol.walk).map Symbol.id =
        ms.addresses.map (Address.id m outer) := by
  have hlabel := Address.id_member hid houter
  have hmethods : (ms.methods.entries.flatMap Symbol.walk).map Symbol.id =
      ms.methods.map fun e => (Address.member e.1 "method").id m outer := by
    rw [Table.entries, List.flatMap_map, List.map_flatMap, List.map_eq_flatMap]
    refine List.flatMap_congr fun e he => ?_
    rw [(hfit.methods e he).2, ← hlabel]
    rfl
  have hfields : (ms.fields.entries.flatMap Symbol.walk).map Symbol.id =
      ms.fields.map fun e => (Address.member e.1 "field").id m outer := by
    rw [Table.entries, List.flatMap_map, List.map_flatMap, List.map_eq_flatMap]
    refine List.flatMap_congr fun e he => ?_
    rw [(hfit.fields e he).2, ← hlabel]
    rfl
  have hproperty (name : String) (getter setter : Bool) :
      (c.property name getter setter).walk.map Symbol.id =
        (Address.ofProperty name getter setter).map (Address.id m outer) := by
    cases getter <;> cases setter <;> simp [ClassName.property, ClassName.accessor, Symbol.walk,
      Symbol.id, Symbol.label, Address.ofProperty, hlabel]
  rw [List.flatMap_append, List.flatMap_append, List.map_append, List.map_append, hmethods, hfields,
    Members.addresses, List.map_append, List.map_append, List.map_map, List.map_map,
    Table.entries, List.map_map, List.flatMap_map, List.map_flatMap, List.map_flatMap]
  simp only [Function.comp_def, hproperty]

/-- The ids of the symbols of class statements are those of their addresses. -/
theorem map_id_walk {m : SourceModule} : ∀ (nodes : List Node) (outer : List String),
    (∀ name ∈ outer, IsWord name) → (∀ n ∈ nodes, n.Written []) →
      (extractClasses m (containerOf outer) nodes).flatMap
        (fun x => x.own.symbol.walk.map Symbol.id) =
          (Node.addressesAll m (containerOf outer) nodes).map (Address.id m outer)
  | [], _, _, _ => by
    rw [extractClasses, Node.addressesAll]
    rfl
  | n :: rest, outer, houter, h => by
    obtain ⟨hn, hrest⟩ := List.forall_mem_cons.mp h
    rw [extractClasses, Node.addressesAll, List.flatMap_append, List.map_append,
      map_id_walk rest outer houter hrest]
    congr 1
    cases n with
    | classDef p name bases keywords body decorators =>
      have hname : IsWord name := hn.isWord _ List.mem_cons_self
      have hbody : ∀ s ∈ body, s.Written [] := fun s hs => hn.of_mem (by simp [Node.parts, hs])
      have hinner : ∀ id ∈ outer ++ [name], IsWord id :=
        List.forall_mem_append.mpr ⟨houter, List.forall_mem_singleton.mpr hname⟩
      have hqualified := qualify_containerOf houter name
      have hid : (ClassName.of m name (containerOf outer)).id =
          classId m.project m.name (joinDots (outer ++ [name])) := by
        rw [← hqualified]
        rfl
      have hmembers := map_id_walk_members hid (by simp) (Members.fit_ofBody _ body)
      have hnested := map_id_walk (m := m) body (outer ++ [name]) hinner hbody
      rw [extractClass, Option.toList_some, List.flatMap_singleton, Extracted.walk_of,
        Extracted.members_of, List.flatMap_append, List.map_cons, List.map_append, Node.addresses,
        Address.map_id_within, List.map_cons, List.map_append, ← containerOf_concat houter]
      refine congrArg₂ _ ?_ (congrArg₂ _ hmembers ?_)
      · show (ClassName.of m name (containerOf outer)).id = _
        rw [hid, Address.id]
        simp
      · rw [List.flatMap_map, List.map_flatMap, hnested]
    | _ => rw [extractClass, Node.addresses] <;> first | rfl | simp
  termination_by nodes => sizeOf nodes

/-! ### Distinct addresses -/

namespace Syntax.Node

variable {m : SourceModule} {container : Option String}

theorem mem_addresses_self {n : Node} {name : String} (h : n.className? = some name) :
    ⟨[name], none⟩ ∈ n.addresses m container := by
  cases n with
  | classDef =>
    cases h
    rw [addresses]
    exact List.mem_cons_self
  | _ => cases h

theorem exists_within_of_mem_addresses {n : Node} {a : Address}
    (ha : a ∈ n.addresses m container) :
    ∃ name b, n.className? = some name ∧ a = Address.within name b := by
  cases n with
  | classDef p name bases keywords body decorators =>
    rw [addresses] at ha
    obtain ⟨b, -, rfl⟩ := List.mem_map.mp ha
    exact ⟨name, b, rfl, rfl⟩
  | _ => simp [addresses] at ha

theorem mem_addressesAll {nodes : List Node} {a : Address} :
    a ∈ addressesAll m container nodes ↔ ∃ n ∈ nodes, a ∈ n.addresses m container := by
  induction nodes with
  | nil => simp [addressesAll]
  | cons n rest ih => simp [addressesAll, ih]

end Syntax.Node

theorem Members.exists_of_mem_addresses {ms : Members} {a : Address} (ha : a ∈ ms.addresses) :
    ∃ name part, a = .member name part ∧ '#' ∉ part.toList ∧
      (name ∈ ms.methods.map Prod.fst ∨ name ∈ ms.properties ∨ name ∈ ms.fields.map Prod.fst) := by
  rw [addresses, List.mem_append, List.mem_append] at ha
  rcases ha with (ha | ha) | ha
  · obtain ⟨e, he, rfl⟩ := List.mem_map.mp ha
    exact ⟨e.1, "method", rfl, by decide, .inl (List.mem_map_of_mem he)⟩
  · obtain ⟨name, hname, ha⟩ := List.mem_flatMap.mp ha
    rw [Address.ofProperty, List.mem_cons, List.mem_append, List.mem_ite_nil_right,
      List.mem_ite_nil_right, List.mem_singleton, List.mem_singleton] at ha
    rcases ha with rfl | ⟨-, rfl⟩ | ⟨-, rfl⟩
    · exact ⟨name, "property", rfl, by decide, .inr (.inl hname)⟩
    · exact ⟨name, "get", rfl, by decide, .inr (.inl hname)⟩
    · exact ⟨name, "set", rfl, by decide, .inr (.inl hname)⟩
  · obtain ⟨e, he, rfl⟩ := List.mem_map.mp ha
    exact ⟨e.1, "field", rfl, by decide, .inr (.inr (List.mem_map_of_mem he))⟩

namespace Address

/-- Only a class itself stands where no more names lead. -/
theorem path_ne_nil_of_mem {m : SourceModule} {container : Option String} {ms : Members}
    {nodes : List Node} {a : Address}
    (ha : a ∈ ms.addresses ++ Node.addressesAll m container nodes) : a.path ≠ [] := by
  rcases List.mem_append.mp ha with ha | ha
  · obtain ⟨name, part, rfl, -⟩ := Members.exists_of_mem_addresses ha
    exact List.cons_ne_nil _ _
  · obtain ⟨n, -, ha⟩ := Node.mem_addressesAll.mp ha
    obtain ⟨name, b, -, rfl⟩ := Node.exists_within_of_mem_addresses ha
    exact List.cons_ne_nil _ _

theorem legible_member {name part : String} (hname : IsWord name) (hpart : '#' ∉ part.toList) :
    (member name part).Legible :=
  ⟨List.forall_mem_singleton.mpr hname, by rintro _ ⟨⟩; exact hpart⟩

theorem Legible.within {a : Address} (h : a.Legible) {name : String} (hname : IsWord name) :
    (a.within name).Legible :=
  ⟨List.forall_mem_cons.mpr ⟨hname, h.path⟩, h.part⟩

/-- The addresses of class statements are written with words. -/
theorem legible_of_mem_addressesAll {m : SourceModule} :
    ∀ (nodes : List Node) (container : Option String), (∀ n ∈ nodes, n.Written []) →
      ∀ a ∈ Node.addressesAll m container nodes, a.Legible
  | [], _, _, a, ha => by
    rw [Node.addressesAll] at ha
    cases ha
  | n :: rest, container, h, a, ha => by
    obtain ⟨hn, hrest⟩ := List.forall_mem_cons.mp h
    rw [Node.addressesAll, List.mem_append] at ha
    rcases ha with ha | ha
    · cases n with
      | classDef p name bases keywords body decorators =>
        have hbody : ∀ s ∈ body, s.Written [] := fun s hs => hn.of_mem (by simp [Node.parts, hs])
        rw [Node.addresses] at ha
        obtain ⟨b, hb, rfl⟩ := List.mem_map.mp ha
        refine Legible.within ?_ (hn.isWord _ List.mem_cons_self)
        rw [List.mem_cons, List.mem_append] at hb
        rcases hb with rfl | hb | hb
        · exact ⟨List.forall_mem_nil _, nofun⟩
        · obtain ⟨id, part, rfl, hpart, hid⟩ := Members.exists_of_mem_addresses hb
          have hfit := Members.fit_ofBody (ClassName.of m name container) body
          refine legible_member (Node.isWord_of_mem_names hbody id ?_) hpart
          rcases hid with hid | hid | hid
          · obtain ⟨e, he, rfl⟩ := List.mem_map.mp hid
            exact (hfit.methods e he).1
          · exact hfit.properties id hid
          · obtain ⟨e, he, rfl⟩ := List.mem_map.mp hid
            exact (hfit.fields e he).1
        · exact legible_of_mem_addressesAll body _ hbody b hb
      | _ => simp [Node.addresses] at ha
    · exact legible_of_mem_addressesAll rest container hrest a ha
  termination_by nodes => sizeOf nodes

end Address

/-- The members of a class that are told apart stand in different places. -/
theorem Members.Apart.nodup_addresses {ms : Members} (h : ms.Apart) : ms.addresses.Nodup := by
  have hinj (part : String) : Function.Injective fun name => Address.member name part :=
    fun name name' heq => by simpa [Address.member] using heq
  have hmethods : (ms.methods.map fun e => Address.member e.1 "method").Nodup := by
    simpa [List.map_map, Function.comp_def] using h.methods.map (hinj "method")
  have hfields : (ms.fields.map fun e => Address.member e.1 "field").Nodup := by
    simpa [List.map_map, Function.comp_def] using h.fields.map (hinj "field")
  have hproperty {name : String} {getter setter : Bool} :
      (Address.ofProperty name getter setter).Nodup := by
    cases getter <;> cases setter <;> simp [Address.ofProperty, Address.member]
  have hparts {name : String} {getter setter : Bool} {a : Address}
      (ha : a ∈ Address.ofProperty name getter setter) :
      a.path = [name] ∧ a.part ≠ some "method" ∧ a.part ≠ some "field" := by
    rw [Address.ofProperty, List.mem_cons, List.mem_append, List.mem_ite_nil_right,
      List.mem_ite_nil_right, List.mem_singleton, List.mem_singleton] at ha
    rcases ha with rfl | ⟨-, rfl⟩ | ⟨-, rfl⟩ <;> simp [Address.member]
  rw [addresses, List.nodup_append', List.nodup_append', List.nodup_flatMap]
  refine ⟨⟨hmethods, ⟨fun name _ => hproperty, h.properties.imp fun {name name'} hne => ?_⟩, ?_⟩,
    hfields, ?_⟩
  · refine List.disjoint_left.mpr fun a ha ha' => hne ?_
    simpa using (hparts ha).1.symm.trans (hparts ha').1
  · refine List.disjoint_left.mpr fun a ha ha' => ?_
    obtain ⟨e, -, rfl⟩ := List.mem_map.mp ha
    obtain ⟨name, -, ha'⟩ := List.mem_flatMap.mp ha'
    exact (hparts ha').2.1 rfl
  · refine List.disjoint_left.mpr fun a ha ha' => ?_
    obtain ⟨e, -, rfl⟩ := List.mem_map.mp ha'
    rcases List.mem_append.mp ha with ha | ha
    · obtain ⟨e, -, heq⟩ := List.mem_map.mp ha
      simp [Address.member] at heq
    · obtain ⟨name, -, ha⟩ := List.mem_flatMap.mp ha
      exact (hparts ha).2.2 rfl

theorem Members.disjoint_addresses {m : SourceModule} {container : Option String} (ms : Members)
    (nodes : List Node) : ms.addresses.Disjoint (Node.addressesAll m container nodes) := by
  refine List.disjoint_left.mpr fun a ha hnested => ?_
  obtain ⟨id, part, rfl, -, -⟩ := Members.exists_of_mem_addresses ha
  obtain ⟨n, -, hn⟩ := Node.mem_addressesAll.mp hnested
  cases n with
  | classDef p name bases keywords body decorators =>
    rw [Node.addresses] at hn
    obtain ⟨b, hb, heq⟩ := List.mem_map.mp hn
    rw [Address.within, Address.member, Address.mk.injEq, List.cons.injEq] at heq
    obtain ⟨⟨-, hpath⟩, hpart⟩ := heq
    rcases List.mem_cons.mp hb with rfl | hb
    · cases hpart
    · exact Address.path_ne_nil_of_mem hb hpath
  | _ => simp [Node.addresses] at hn

/-- Class statements next to each other stand in different places if they have different names. -/
theorem Node.disjoint_addresses_iff {m : SourceModule} {container : Option String} {n : Node}
    {rest : List Node} :
    (n.addresses m container).Disjoint (Node.addressesAll m container rest) ↔
      ∀ name ∈ n.className?, name ∉ rest.filterMap Node.className? := by
  constructor
  · intro h name hname hmem
    obtain ⟨n', hn', hname'⟩ := List.mem_filterMap.mp hmem
    exact List.disjoint_left.mp h (Node.mem_addresses_self hname)
      (Node.mem_addressesAll.mpr ⟨n', hn', Node.mem_addresses_self hname'⟩)
  · intro h
    refine List.disjoint_left.mpr fun a ha ha' => ?_
    obtain ⟨n', hn', ha'⟩ := Node.mem_addressesAll.mp ha'
    obtain ⟨name, b, hname, rfl⟩ := Node.exists_within_of_mem_addresses ha
    obtain ⟨name', b', hname', heq⟩ := Node.exists_within_of_mem_addresses ha'
    obtain rfl : name = name' := by
      simpa [Address.within] using congrArg (fun a => a.path.head?) heq
    exact h name hname (List.mem_filterMap.mpr ⟨n', hn', hname'⟩)

/-- The addresses within class statements are distinct if no class is declared again next to or
within them. -/
theorem nodup_addressesAll_iff {m : SourceModule} :
    ∀ (nodes : List Node) (container : Option String),
      (Node.addressesAll m container nodes).Nodup ↔
        (nodes.filterMap Node.className?).Nodup ∧ Node.NestOnce nodes
  | [], _ => by simp [Node.addressesAll, Node.NestOnce]
  | n :: rest, container => by
    have hone : (n.addresses m container).Nodup ↔ n.NestsOnce := by
      cases n with
      | classDef p name bases keywords body decorators =>
        set c := ClassName.of m name container
        have hmembers := (Members.apart_ofBody c body).nodup_addresses
        have hself : ⟨[], none⟩ ∉ (Members.ofBody c body).1.addresses ++
            Node.addressesAll m (some c.qualified) body := fun hmem =>
          Address.path_ne_nil_of_mem hmem rfl
        rw [Node.addresses, List.nodup_map_iff (Address.within_injective name), List.nodup_cons,
          List.nodup_append', nodup_addressesAll_iff body, Node.NestsOnce]
        exact ⟨fun h => h.2.2.1, fun h => ⟨hself, hmembers, h, Members.disjoint_addresses _ _⟩⟩
      | _ => simp [Node.addresses, Node.NestsOnce]
    rw [Node.addressesAll, List.nodup_append', hone, nodup_addressesAll_iff rest container,
      Node.disjoint_addresses_iff, Node.NestOnce]
    cases hname : n.className? with
    | none =>
      rw [List.filterMap_cons_none hname]
      simp
      tauto
    | some name =>
      rw [List.filterMap_cons_some hname, List.nodup_cons]
      simp
      tauto
  termination_by nodes => sizeOf nodes

/-! ### Modules -/

namespace SourceModule

/-- A class statement of the module level that is seen: none that comes later has its name. -/
def Seen (m : SourceModule) (n : Node) : Prop :=
  ∃ before after name, moduleStatements m.body = before ++ n :: after ∧
    n.className? = some name ∧ ∀ n' ∈ after, n'.className? ≠ some name

end SourceModule

theorem map_name_extractClass (m : SourceModule) (container : Option String) (n : Node) :
    (extractClass m container n).map (fun x => x.own.symbol.name) = n.className? := by
  cases n <;> rfl

namespace SourceModule

variable {m : SourceModule}

/-- The statements that stand are those that are seen, extracted. -/
theorem stands_iff {x : Extracted} :
    m.Stands x ↔ ∃ n, m.Seen n ∧ extractClass m none n = some x := by
  have hname {n : Node} {x : Extracted} (h : extractClass m none n = some x) :
      n.className? = some x.own.symbol.name := by
    rw [← map_name_extractClass m none n, h]
    rfl
  constructor
  · rintro ⟨before, after, hstatements, hafter⟩
    obtain ⟨first, last, heq, -, hlast⟩ := List.filterMap_eq_append_iff.mp hstatements
    obtain ⟨skipped, n, later, rfl, -, hn, hlater⟩ := List.filterMap_eq_cons_iff.mp hlast
    refine ⟨n, ⟨first ++ skipped, later, x.own.symbol.name, by simp [heq], hname hn, ?_⟩, hn⟩
    intro n' hn' hclass
    rw [← map_name_extractClass m none n'] at hclass
    obtain ⟨y, hy, hsame⟩ := Option.map_eq_some_iff.mp hclass
    exact hafter y (hlater ▸ List.mem_filterMap.mpr ⟨n', hn', hy⟩) hsame
  · rintro ⟨n, ⟨before, after, name, heq, hclass, hafter⟩, hn⟩
    refine ⟨before.filterMap (extractClass m none), after.filterMap (extractClass m none), ?_, ?_⟩
    · rw [statements, heq, List.filterMap_append, List.filterMap_cons_some hn]
    · intro y hy hsame
      obtain ⟨n', hn', hy⟩ := List.mem_filterMap.mp hy
      rw [hname hn] at hclass
      exact hafter n' hn' (by rw [hname hy, hsame, hclass])

theorem Seen.written (hbody : ∀ n ∈ m.body, n.Written []) {n : Node} (h : m.Seen n) :
    n.Written [] := by
  obtain ⟨before, after, name, heq, -, -⟩ := h
  exact Node.written_moduleStatements m.body hbody n (by simp [heq])

/-- The ids that are met in a class of the module level. -/
theorem map_id_walk_of_extractClass {n : Node} {x : Extracted} (hn : n.Written [])
    (hx : extractClass m none n = some x) :
    x.own.symbol.walk.map Symbol.id = (n.addresses m none).map (Address.id m []) := by
  simpa [extractClasses, Node.addressesAll, containerOf, hx] using
    map_id_walk (m := m) [n] [] (List.forall_mem_nil _) (List.forall_mem_singleton.mpr hn)

theorem id_inj_of_mem_addresses {n n' : Node} (hn : n.Written []) (hn' : n'.Written [])
    {a b : Address} (ha : a ∈ n.addresses m none) (hb : b ∈ n'.addresses m none)
    (h : a.id m [] = b.id m []) : a = b := by
  have hfacts {n : Node} (hn : n.Written []) {a : Address} (ha : a ∈ n.addresses m none) :
      a.Legible ∧ a.path ≠ [] := by
    refine ⟨Address.legible_of_mem_addressesAll [n] none (List.forall_mem_singleton.mpr hn) a
      (Node.mem_addressesAll.mpr ⟨n, List.mem_singleton_self n, ha⟩), ?_⟩
    obtain ⟨name, b, -, rfl⟩ := Node.exists_within_of_mem_addresses ha
    exact List.cons_ne_nil _ _
  exact Address.id_inj (List.forall_mem_nil _) (hfacts hn ha).1 (hfacts hn' hb).1
    (hfacts hn ha).2 (hfacts hn' hb).2 h

/-- The ids that are met in one class of the module level. -/
theorem nodup_walk_iff {n : Node} {x : Extracted} (hn : n.Written [])
    (hx : extractClass m none n = some x) :
    (x.own.symbol.walk.map Symbol.id).Nodup ↔ n.NestsOnce := by
  have hnodup : (n.addresses m none).Nodup ↔ n.NestsOnce := by
    have hall := nodup_addressesAll_iff (m := m) [n] none
    rw [Node.addressesAll, Node.addressesAll, List.append_nil] at hall
    rw [hall, Node.NestOnce, Node.NestOnce, and_true]
    refine and_iff_right ?_
    cases hname : n.className? with
    | none => simp [hname]
    | some name => simp [hname]
  rw [map_id_walk_of_extractClass hn hx, ← hnodup]
  exact ⟨List.Nodup.of_map _, List.Nodup.map_on fun a ha b hb =>
    id_inj_of_mem_addresses hn hn ha hb⟩

/-- **The ids that are met in the types of a module are distinct** if and only if none of its class
statements that are seen, and no class within one, has two class statements of one name directly in
its body. Redefined methods, properties and fields, and redefined classes of the module level, never
repeat an id. -/
theorem nodup_ids_iff {source : String} (hsource : parseModule source = .ok m.body) :
    (((extractModule m).typeSymbols.flatMap Symbol.walk).map Symbol.id).Nodup ↔
      ∀ n, m.Seen n → n.NestsOnce := by
  have hwritten {n : Node} (h : m.Seen n) : n.Written [] :=
    h.written (written_of_parseModule hsource)
  obtain ⟨hkeys, hentries⟩ := Table.mem_foldl_insert Extracted.entry m.statements
  set t := m.statements.foldl (fun t x => Table.insert x.entry.1 x.entry.2 t) [] with ht
  have hseen {e : String × Position × Symbol} (he : e ∈ t) :
      ∃ n x, m.Seen n ∧ extractClass m none n = some x ∧ x.entry = e := by
    obtain ⟨before, x, after, hx, rfl, hafter⟩ := (hentries e).mp he
    obtain ⟨n, hn, hx⟩ := stands_iff.mp ⟨before, after, hx, hafter⟩
    exact ⟨n, x, hn, hx, rfl⟩
  have hids : ((extractModule m).typeSymbols.flatMap Symbol.walk).map Symbol.id =
      t.flatMap fun e => e.2.2.walk.map Symbol.id := by
    rw [ModuleDecls.typeSymbols, List.flatMap_map, List.map_flatMap]
    rfl
  have hdisjoint : t.Pairwise (Function.onFun List.Disjoint fun e => e.2.2.walk.map Symbol.id) := by
    refine (List.pairwise_map.mp hkeys).imp_of_mem fun {e e'} he he' hne => ?_
    obtain ⟨n, x, hn, hx, rfl⟩ := hseen he
    obtain ⟨n', x', hn', hx', rfl⟩ := hseen he'
    refine List.disjoint_left.mpr fun id hid hid' => hne ?_
    have hid : id ∈ x.own.symbol.walk.map Symbol.id := hid
    have hid' : id ∈ x'.own.symbol.walk.map Symbol.id := hid'
    rw [map_id_walk_of_extractClass (hwritten hn) hx] at hid
    rw [map_id_walk_of_extractClass (hwritten hn') hx'] at hid'
    obtain ⟨a, ha, rfl⟩ := List.mem_map.mp hid
    obtain ⟨b, hb, hsame⟩ := List.mem_map.mp hid'
    obtain rfl := id_inj_of_mem_addresses (hwritten hn') (hwritten hn) hb ha hsame
    -- what stands in both has the names of both in front
    obtain ⟨name, c, hname, heq⟩ := Node.exists_within_of_mem_addresses ha
    obtain ⟨name', c', hname', heq'⟩ := Node.exists_within_of_mem_addresses hb
    rw [← map_name_extractClass m none n, hx] at hname
    rw [← map_name_extractClass m none n', hx'] at hname'
    obtain rfl : name = name' := by
      simpa [Address.within] using congrArg (fun a => a.path.head?) (heq.symm.trans heq')
    exact Option.some.inj (hname.trans hname'.symm)
  rw [hids, List.nodup_flatMap]
  constructor
  · rintro ⟨hall, -⟩ n hn
    obtain ⟨x, hx⟩ : ∃ x, extractClass m none n = some x := by
      obtain ⟨-, -, name, -, hname, -⟩ := hn
      cases n with
      | classDef => exact ⟨_, rfl⟩
      | _ => cases hname
    have hstands : m.Stands x := stands_iff.mpr ⟨n, hn, hx⟩
    obtain ⟨before, after, hstatements, hafter⟩ := hstands
    have he : x.entry ∈ t := (hentries _).mpr ⟨before, x, after, hstatements, rfl, hafter⟩
    exact (nodup_walk_iff (hwritten hn) hx).mp (hall _ he)
  · intro h
    refine ⟨fun e he => ?_, hdisjoint⟩
    obtain ⟨n, x, hn, hx, rfl⟩ := hseen he
    exact (nodup_walk_iff (hwritten hn) hx).mpr (h n hn)

/-- A class of the module level, a method and a field are declared again here, and each id is met
once. -/
theorem nodup_ids_redeclared :
    let source := "class A: pass\nclass A:\n    def f(self): self.z = 1\n" ++
      "    def f(self): self.z = 2\n    class B: pass\n"
    let m := readModule "m" source
    parseModule source = .ok m.body ∧
      ((extractModule m).typeSymbols.flatMap Symbol.walk).map Symbol.id =
        ["p/m:A", "p/m:A.f#method", "p/m:A.z#field", "p/m:A.B"] ∧
      ∀ n, m.Seen n → n.NestsOnce := by
  intro source m
  have hparsed : parseModule source = .ok m.body := parseModule_readModule (by decide +kernel)
  have hids : ((extractModule m).typeSymbols.flatMap Symbol.walk).map Symbol.id =
      ["p/m:A", "p/m:A.f#method", "p/m:A.z#field", "p/m:A.B"] := by decide +kernel
  exact ⟨hparsed, hids, (nodup_ids_iff hparsed).mp (hids ▸ by decide)⟩

/-- The ids of a module are not always distinct: the symbol of a class holds one member for each
class statement in its body, and two of one name have one id. -/
theorem not_always_nodup_ids :
    ¬ ∀ (m : SourceModule) (source : String), parseModule source = .ok m.body →
      (((extractModule m).typeSymbols.flatMap Symbol.walk).map Symbol.id).Nodup := by
  intro h
  let source := "class A:\n    class B: pass\n    class B: pass\n"
  have hparsed : parseModule source = .ok (readModule "m" source).body :=
    parseModule_readModule (by decide +kernel)
  have hids : ((extractModule (readModule "m" source)).typeSymbols.flatMap Symbol.walk).map
      Symbol.id = ["p/m:A", "p/m:A.B", "p/m:A.B"] := by decide +kernel
  have hnodup := h _ source hparsed
  rw [hids] at hnodup
  exact absurd hnodup (by decide)

end SourceModule

end Concordance
