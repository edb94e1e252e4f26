import Concordance.Proofs.Declaration.Members
import Concordance.Proofs.Syntax.Levels

/-!
# Sites of fields

A field that is no member of its class for another reason is declared by a store to a member of the
receiver in one of the methods, and the place of that store is kept as its site. The methods are
gone through in the order of the body, but each of them level by level, and so is each target of an
assignment. So the site is that of the first store among those nested least deeply, which need not
be the first one in the source.

Which stores become sites does not depend on hints and values, only on the names that are taken when
a store is come to.

## Main definitions

* `methodStores`: the stores of a method to its receiver, in the order in which they are gone
  through
* `firstStores`: the sites that stores become
* `Leading`: a store that is the first one in its method and nested least deeply
* `SourceModule.Declares`: the statements that stand where declared classes do

## Main results

* `Members.sites_ofBody`: the sites of a class
* `head?_stores_of_leading`: where the two orders agree
* `SourceModule.splits_of_declares`: the sites of a class among those of its module
-/

namespace Concordance

open Syntax

/-! ### Stores -/

/-- The receiver of a method. -/
def Syntax.Node.receiver? : Node → Option String
  | .functionDef _ _ _ ps _ decorators _ => receiverName? ps decorators
  | _ => none

/-- The member of the receiver that a node stores to. -/
def Syntax.Node.storedMember? (receiver : String) : Node → Option String
  | .member _ (.name _ id' _) attr .store => if id' = receiver then some attr else none
  | _ => none

/-- The stores to members of the receiver among some nodes. -/
def storesAmong (receiver : String) (nodes : List Node) : List (Node × String) :=
  nodes.filterMap fun n => (n.storedMember? receiver).map fun attr => (n, attr)

/-- The stores of an assignment to members of the receiver, target by target, each of them level by
level. -/
def assignedStores (receiver : String) (a : Node) : List (Node × String) :=
  match Members.assignmentOf? a with
  | none => []
  | some (targets, _, _) => targets.flatMap fun t => storesAmong receiver t.breadthFirst

/-- The stores of a method to members of its receiver by assignments, in the order in which they are
gone through. -/
def methodStores (M : Node) : List (Node × String) :=
  match M.receiver? with
  | none => []
  | some receiver => M.breadthFirst.flatMap (assignedStores receiver)

/-- The sites that stores become: each name that is not taken has one, where it is stored to
first. -/
def firstStores (taken : String → Bool) : List (Node × String) → List FieldSite
  | [] => []
  | (n, attr) :: rest =>
    if taken attr then firstStores taken rest
    else ⟨n.position, attr⟩ :: firstStores (fun name => taken name || attr = name) rest

/-- Whether stores are to a member of this name, among others. -/
def storeTo (stores : List (Node × String)) (name : String) : Bool :=
  stores.any fun e => e.2 = name

theorem firstStores_append (taken : String → Bool) (xs ys : List (Node × String)) :
    firstStores taken (xs ++ ys) =
      firstStores taken xs ++ firstStores (fun name => taken name || storeTo xs name) ys := by
  induction xs generalizing taken with
  | nil => simp [firstStores, storeTo]
  | cons e rest ih =>
    obtain ⟨n, attr⟩ := e
    rw [List.cons_append, firstStores, firstStores]
    split
    · rename_i htaken
      rw [ih]
      congr 2
      funext name
      by_cases hname : attr = name
      · simp [storeTo, ← hname, htaken]
      · simp [storeTo, hname]
    · rw [ih, List.cons_append]
      congr 3
      funext name
      simp [storeTo, Bool.or_assoc]

/-- A name has the site of the first store to it, unless it is taken. -/
theorem mem_firstStores_iff {taken : String → Bool} {stores : List (Node × String)}
    {site : FieldSite} : site ∈ firstStores taken stores ↔
      taken site.attr = false ∧
        ((stores.filter fun e => e.2 = site.attr).head?.map fun e => e.1.position) =
          some site.position := by
  induction stores generalizing taken with
  | nil => simp [firstStores]
  | cons e rest ih =>
    obtain ⟨n, attr⟩ := e
    rw [firstStores]
    by_cases hattr : attr = site.attr
    · subst hattr
      split
      · rename_i htaken
        simp [ih, htaken]
      · rename_i htaken
        obtain ⟨position, name⟩ := site
        simp [ih, htaken]
        tauto
    · have hfilter : ((n, attr) :: rest).filter (fun e => e.2 = site.attr) =
          rest.filter fun e => e.2 = site.attr := by simp [hattr]
      rw [hfilter]
      split
      · exact ih
      · have hne : site ≠ ⟨n.position, attr⟩ := fun h => hattr (h ▸ rfl)
        simp [ih, hne, hattr]

namespace Members

variable {c : ClassName}

/-- Whether a name is that of a member. -/
def taken (ms : Members) (name : String) : Bool :=
  ms.methods.has name || ms.properties.contains name || ms.fields.has name

/-- Between two states of the collection some stores are gone through. They add fields and nothing
else. -/
structure Collects (c : ClassName) (acc : Members × List FieldSite) (stores : List (Node × String))
    (acc' : Members × List FieldSite) : Prop where
  sites : acc'.2 = acc.2 ++ firstStores acc.1.taken stores
  taken : ∀ name, acc'.1.taken name = (acc.1.taken name || storeTo stores name)
  methods : acc'.1.methods = acc.1.methods
  properties : acc'.1.properties = acc.1.properties
  fields : ∀ name s, acc'.1.fields.find? name = some s →
    acc.1.fields.find? name = some s ∨ s = c.field name

variable {acc acc' acc'' : Members × List FieldSite} {stores stores' : List (Node × String)}

theorem Collects.refl (acc : Members × List FieldSite) : Collects c acc [] acc :=
  ⟨(List.append_nil _).symm, fun _ => (Bool.or_false _).symm, rfl, rfl, fun _ _ => .inl⟩

theorem Collects.trans (h : Collects c acc stores acc') (h' : Collects c acc' stores' acc'') :
    Collects c acc (stores ++ stores') acc'' where
  sites := by
    rw [h'.sites, h.sites, firstStores_append, List.append_assoc]
    exact congrArg _ (congrArg _ (congrArg (firstStores · stores') (funext h.taken)))
  taken name := by
    rw [h'.taken, h.taken, storeTo, storeTo, storeTo, List.any_append, Bool.or_assoc]
  methods := h'.methods.trans h.methods
  properties := h'.properties.trans h.properties
  fields name s hs := (h'.fields name s hs).elim (h.fields name s) .inr

/-- Steps of the collection go through what each of them goes through. -/
theorem collects_foldl {α : Type} {f : Members × List FieldSite → α → Members × List FieldSite}
    {g : α → List (Node × String)} (h : ∀ acc a, Collects c acc (g a) (f acc a)) (l : List α)
    (acc : Members × List FieldSite) : Collects c acc (l.flatMap g) (l.foldl f acc) := by
  induction l generalizing acc with
  | nil => exact .refl acc
  | cons a rest ih => exact (h acc a).trans (ih (f acc a))

theorem has_insertNew {α : Type} (t : Table String α) (name other : String) (a : α) :
    (t.insertNew name a).has other = (t.has other || decide (name = other)) := by
  rw [Table.has, Table.find?_insertNew]
  by_cases hname : name = other
  · simp [hname]
  · simp [hname, Table.has]

/-- A field is new if its name is not taken, and then it is. -/
theorem taken_addField (ms : Members) (name : String) (hint value : Option Node) :
    (ms.addField c name hint value).2 = !ms.taken name ∧
      ∀ other, (ms.addField c name hint value).1.taken other =
        (ms.taken other || decide (name = other)) := by
  have hsame (h : ms.taken name = true) (other : String) :
      ms.taken other = (ms.taken other || decide (name = other)) := by
    by_cases hname : name = other
    · simp [← hname, h]
    · simp [hname]
  rw [addField]
  split
  · rename_i hfunction
    have htaken : ms.taken name = true := by rw [taken, hfunction, Bool.true_or]
    exact ⟨by rw [htaken]; rfl, hsame htaken⟩
  · rename_i hfunction
    dsimp only
    split
    · rename_i hfield
      have htaken : ms.taken name = true := by rw [taken, hfield, Bool.or_true]
      exact ⟨by rw [htaken]; rfl, hsame htaken⟩
    · rename_i hfield
      refine ⟨by rw [taken, Bool.eq_false_of_not_eq_true hfunction,
        Bool.eq_false_of_not_eq_true hfield]; rfl, fun other => ?_⟩
      rw [taken, taken, has_insertNew, Bool.or_assoc _ (ms.fields.has other)]

/-- A field that is collected is the symbol that is made for it. -/
theorem addField_keeps (ms : Members) (name : String) (hint value : Option Node) :
    (ms.addField c name hint value).1.methods = ms.methods ∧
      (ms.addField c name hint value).1.properties = ms.properties ∧
      ∀ other s, (ms.addField c name hint value).1.fields.find? other = some s →
        ms.fields.find? other = some s ∨ s = c.field other := by
  rw [addField]
  split
  · exact ⟨rfl, rfl, fun _ _ => .inl⟩
  · dsimp only
    split
    · exact ⟨rfl, rfl, fun _ _ => .inl⟩
    · refine ⟨rfl, rfl, fun other s hs => ?_⟩
      rw [Table.find?_insertNew] at hs
      split at hs
      · rename_i hname
        subst hname
        cases hfind : ms.fields.find? name with
        | none =>
          rw [hfind] at hs
          exact .inr (Option.some.inj hs).symm
        | some s' =>
          rw [hfind] at hs
          exact .inl hs
      · exact .inl hs

theorem collects_addField (acc : Members × List FieldSite) (n : Node) (attr : String)
    (hint value : Option Node) :
    Collects c acc [(n, attr)] ((acc.1.addField c attr hint value).1,
      if (acc.1.addField c attr hint value).2 then acc.2 ++ [⟨n.position, attr⟩] else acc.2) := by
  obtain ⟨hnew, htaken⟩ := taken_addField (c := c) acc.1 attr hint value
  obtain ⟨hmethods, hproperties, hfields⟩ := addField_keeps (c := c) acc.1 attr hint value
  refine ⟨?_, fun name => ?_, hmethods, hproperties, hfields⟩
  · dsimp only
    rw [hnew]
    cases htaken : acc.1.taken attr <;> simp [firstStores, htaken]
  · dsimp only
    rw [htaken, storeTo]
    simp

theorem map_receiverTargets (receiver : String) (t : Node) :
    (receiverTargets receiver t).map (fun e => (e.1, e.2.1)) =
      storesAmong receiver t.breadthFirst := by
  have hmember (whole : Bool) (n : Node) :
      (match n with
        | .member _ (.name _ id _) attr .store =>
          if id = receiver then some (n, attr, whole) else none
        | _ => none : Option (Node × String × Bool)).map (fun e => (e.1, e.2.1)) =
          (n.storedMember? receiver).map fun attr => (n, attr) := by
    rw [Node.storedMember?.eq_def]
    split
    · split <;> rfl
    · rfl
  rw [receiverTargets, storesAmong]
  cases t.breadthFirst with
  | nil => rfl
  | cons whole within =>
    dsimp only
    rw [List.map_append, ← Option.toList_map, List.map_filterMap]
    refine (congrArg₂ _ (congrArg Option.toList (hmember true whole))
      (congrArg (List.filterMap · within) (funext (hmember false)))).trans ?_
    rw [List.filterMap_cons]
    cases (whole.storedMember? receiver).map fun attr => (whole, attr) <;> rfl

theorem collects_addAssignment (receiver : String) (hints : Table String Node)
    (acc : Members × List FieldSite) (a : Node) :
    Collects c acc (assignedStores receiver a) (addAssignment c receiver hints acc a) := by
  rw [assignedStores, addAssignment]
  cases assignmentOf? a with
  | none => exact .refl acc
  | some assignment =>
    obtain ⟨targets, hint, value⟩ := assignment
    have hstores : (targets.flatMap fun t => storesAmong receiver t.breadthFirst) =
        (targets.flatMap (receiverTargets receiver)).flatMap fun e => [(e.1, e.2.1)] := by
      rw [List.flatMap_assoc]
      exact List.flatMap_congr fun t _ => by rw [← map_receiverTargets, List.map_eq_flatMap]
    dsimp only
    rw [hstores]
    exact collects_foldl (fun acc e => collects_addField acc e.1 e.2.1 _ _) _ acc

theorem collects_addInstanceFields (acc : Members × List FieldSite) (stmt : Node) :
    Collects c acc (methodStores stmt) (addInstanceFields c acc stmt) := by
  rw [methodStores, addInstanceFields.eq_def]
  cases stmt with
  | functionDef p async name parameters body decorators returns =>
    rw [Node.receiver?]
    dsimp only
    cases receiverName? parameters decorators with
    | none => exact .refl acc
    | some receiver => exact collects_foldl (fun acc a => collects_addAssignment _ _ acc a) _ acc
  | _ => exact .refl acc

/-- The members of a class body apart from what its methods store to their receivers. -/
def atLevel (c : ClassName) (body : List Node) : Members :=
  body.foldl (addClassField c) (body.foldl (fun (ms : Members) stmt =>
    match stmt with
    | .functionDef _ _ name _ _ decorators result => ms.addFunction c name decorators result
    | _ => ms) {})

theorem collects_ofBody (c : ClassName) (body : List Node) :
    Collects c (atLevel c body, []) (body.flatMap methodStores) (ofBody c body) :=
  collects_foldl (fun acc stmt => collects_addInstanceFields (c := c) acc stmt) body
    (atLevel c body, [])

/-- The sites of a class: of each name that is no member for another reason the first store. -/
theorem sites_ofBody (c : ClassName) (body : List Node) :
    (ofBody c body).2 = firstStores (atLevel c body).taken (body.flatMap methodStores) :=
  (collects_ofBody c body).sites

/-- A name that is stored to by methods only is that of a field. -/
theorem find?_fields_ofBody {body : List Node} {attr : String}
    (honly : (atLevel c body).taken attr = false)
    (hstored : storeTo (body.flatMap methodStores) attr = true) :
    (ofBody c body).1.methods.find? attr = none ∧ attr ∉ (ofBody c body).1.properties ∧
      (ofBody c body).1.fields.find? attr = some (c.field attr) := by
  have hcollects := collects_ofBody c body
  have htaken := hcollects.taken attr
  rw [hcollects.methods, hcollects.properties]
  simp only [taken, Bool.or_eq_false_iff] at honly
  rw [show (atLevel c body, ([] : List FieldSite)).1 = atLevel c body from rfl, hstored,
    Bool.or_true, taken, hcollects.methods, hcollects.properties, honly.1.1, honly.1.2] at htaken
  obtain ⟨s, hs⟩ := Option.isSome_iff_exists.mp htaken
  refine ⟨Option.isNone_iff_eq_none.mp (by simpa [Table.has] using honly.1.1),
    by simpa using honly.1.2, ?_⟩
  rcases hcollects.fields attr s hs with hbefore | rfl
  · have hnone : ((atLevel c body).fields.find? attr).isSome = false := honly.2
    rw [hbefore] at hnone
    cases hnone
  · exact hs

end Members

/-! ### Where the two orders agree -/

/-- A store leads the stores of a method to one member: no assignment to the member stands before
its own one in the tree, and no other store before it in that; and neither its assignment nor the
store within its target is nested deeper than those that follow. -/
inductive Leading (receiver attr : String) (M : Node) : Node → Prop
  | intro {a t first : Node} {targets others : List Node} {hint value : Option Node} {d e : Nat}
      {before after within rest : List (Nat × Node)}
      (hassignment : Members.assignmentOf? a = some (targets ++ t :: others, hint, value))
      (hM : M.inOrder = before ++ (d, a) :: after)
      (ht : t.inOrder = within ++ (e, first) :: rest)
      (hfirst : first.storedMember? receiver = some attr)
      (hbefore : ∀ b ∈ before, storeTo (assignedStores receiver b.2) attr = false)
      (htargets : ∀ u ∈ targets, storeTo (storesAmong receiver u.breadthFirst) attr = false)
      (hwithin : ∀ b ∈ within, b.2.storedMember? receiver ≠ some attr)
      (hafter : ∀ b ∈ after, storeTo (assignedStores receiver b.2) attr = true → d ≤ b.1)
      (hrest : ∀ b ∈ rest, b.2.storedMember? receiver = some attr → e ≤ b.1) :
      Leading receiver attr M first

section

variable {receiver attr : String}

theorem storeTo_eq_false_iff {stores : List (Node × String)} :
    storeTo stores attr = false ↔ stores.filter (fun e => e.2 = attr) = [] := by
  simp [storeTo]

theorem filter_storesAmong (nodes : List Node) :
    (storesAmong receiver nodes).filter (fun e => e.2 = attr) =
      nodes.flatMap fun n => if n.storedMember? receiver = some attr then [(n, attr)] else [] := by
  induction nodes with
  | nil => rfl
  | cons n rest ih =>
    rw [List.flatMap_cons, ← ih, storesAmong, List.filterMap_cons]
    cases hn : n.storedMember? receiver with
    | none => simp [storesAmong]
    | some name =>
      by_cases hname : name = attr
      · simp [hname, storesAmong]
      · simp [hname, storesAmong]

/-- A store that leads is the first one that is gone through. -/
theorem head?_stores_of_leading {M first : Node} (h : Leading receiver attr M first)
    (hM : M.receiver? = some receiver) :
    ((methodStores M).filter fun e => e.2 = attr).head? = some (first, attr) := by
  obtain ⟨hassignment, hM', ht, hfirst, hbefore, htargets, hwithin, hafter, hrest⟩ := h
  rename_i a t targets others hint value d e before after within rest
  have hstore : (if first.storedMember? receiver = some attr then [(first, attr)] else []) =
      [(first, attr)] := if_pos hfirst
  -- within its target
  have htarget : ((storesAmong receiver t.breadthFirst).filter fun e => e.2 = attr).head? =
      some (first, attr) := by
    rw [filter_storesAmong, Node.breadthFirst, Node.breadthFirstAll,
      Node.head?_flatMap_levels ht (fun b hb => if_neg (hwithin b hb)) (by rw [hstore]; simp)
        fun b hb hgives => hrest b hb (by_contra fun hne => hgives (if_neg hne)), hstore]
    rfl
  have hne {stores : List (Node × String)} (h : (stores.filter fun e => e.2 = attr).head? =
      some (first, attr)) : stores.filter (fun e => e.2 = attr) ≠ [] := by
    intro hnil
    rw [hnil] at h
    cases h
  -- among the targets of its assignment
  have hassigned : ((assignedStores receiver a).filter fun e => e.2 = attr).head? =
      some (first, attr) := by
    rw [assignedStores, hassignment]
    dsimp only
    rw [List.filter_flatMap, Node.head?_flatMap_of_first
      (fun u hu => storeTo_eq_false_iff.mp (htargets u hu)) (hne htarget), htarget]
  rw [methodStores, hM]
  dsimp only
  rw [List.filter_flatMap, Node.breadthFirst, Node.breadthFirstAll,
    Node.head?_flatMap_levels hM' (fun b hb => storeTo_eq_false_iff.mp (hbefore b hb))
      (hne hassigned) fun b hb hgives => hafter b hb ?_, hassigned]
  exact Bool.eq_true_of_not_eq_false fun hfalse => hgives (storeTo_eq_false_iff.mp hfalse)

end

/-! ### Sites of a module -/

/-- A statement that stands where the statements of declared classes do: at the level of the module,
or directly in the body of a declared class, whose qualified name is its container. -/
inductive SourceModule.Declares (m : SourceModule) : Option String → Node → Prop
  | level {n : Node} (hn : n ∈ moduleStatements m.body) : m.Declares none n
  | nested {container : Option String} {p : Place} {name : String}
      {bases keywords body decorators : List Node} {n : Node}
      (h : m.Declares container (.classDef p name bases keywords body decorators))
      (hn : n ∈ body) : m.Declares (some (ClassName.of m name container).qualified) n

/-- All stores of a method to members of its receiver, level by level. -/
def receiverStores (M : Node) : List (Node × String) :=
  match M.receiver? with
  | none => []
  | some receiver => storesAmong receiver M.breadthFirst

/-- The site that a store would have. -/
def storePlace (e : Node × String) : FieldSite := ⟨e.1.position, e.2⟩

namespace Syntax.Node

mutual

/-- The stores to their receivers in the methods of a class and of the classes within it. -/
def classStores : Node → List (Node × String)
  | .classDef _ _ _ _ body _ => classStoresAll body ++ body.flatMap receiverStores
  | _ => []

/-- Those in the class statements directly in a body. -/
def classStoresAll : List Node → List (Node × String)
  | [] => []
  | n :: rest => n.classStores ++ classStoresAll rest

end

end Syntax.Node

/-- The stores to their receivers in the methods of all declared classes of a module. -/
def SourceModule.stores (m : SourceModule) : List (Node × String) :=
  Node.classStoresAll (moduleStatements m.body)

theorem mem_storesAmong {receiver : String} {nodes : List Node} {e : Node × String} :
    e ∈ storesAmong receiver nodes ↔ e.1 ∈ nodes ∧ e.1.storedMember? receiver = some e.2 := by
  obtain ⟨n, attr⟩ := e
  simp [storesAmong]

/-- Stores by assignments are stores. -/
theorem methodStores_subset (M : Node) : methodStores M ⊆ receiverStores M := by
  intro e he
  rw [methodStores] at he
  rw [receiverStores]
  cases hM : M.receiver? with
  | none =>
    rw [hM] at he
    cases he
  | some receiver =>
    rw [hM] at he
    obtain ⟨a, ha, he⟩ := List.mem_flatMap.mp he
    rw [assignedStores] at he
    split at he
    · cases he
    · rename_i targets hint value hassignment
      obtain ⟨t, ht, he⟩ := List.mem_flatMap.mp he
      obtain ⟨hmem, hstored⟩ := mem_storesAmong.mp he
      exact mem_storesAmong.mpr ⟨Node.breadthFirst_subset ha
        (Members.mem_parts_of_assignmentOf? hassignment t ht) hmem, hstored⟩

/-- Sites are places of stores. -/
theorem firstStores_subset (taken : String → Bool) (stores : List (Node × String)) :
    firstStores taken stores ⊆ stores.map storePlace := by
  intro site hsite
  obtain ⟨-, hhead⟩ := mem_firstStores_iff.mp hsite
  obtain ⟨e, he, hposition⟩ := Option.map_eq_some_iff.mp hhead
  obtain ⟨hmem, hattr⟩ := List.mem_filter.mp (List.mem_of_mem_head? he)
  refine List.mem_map.mpr ⟨e, hmem, ?_⟩
  rw [storePlace, hposition, of_decide_eq_true hattr]

theorem Members.sites_ofBody_subset (c : ClassName) (body : List Node) :
    (ofBody c body).2 ⊆ (body.flatMap receiverStores).map storePlace := by
  rw [sites_ofBody]
  refine List.Subset.trans (firstStores_subset _ _) (List.map_subset _ fun e he => ?_)
  obtain ⟨M, hM, he⟩ := List.mem_flatMap.mp he
  exact List.mem_flatMap.mpr ⟨M, hM, methodStores_subset M he⟩

theorem sites_of (c : ClassName) (p : Position) (bases body : List Node)
    (nested : List Extracted) : (Extracted.of c p bases body nested).sites =
      nested.flatMap Extracted.sites ++ (Members.ofBody c body).2 :=
  rfl

theorem append_subset_append {α : Type} {xs ys xs' ys' : List α} (h : xs ⊆ xs') (h' : ys ⊆ ys') :
    xs ++ ys ⊆ xs' ++ ys' :=
  List.append_subset.mpr
    ⟨List.subset_append_of_subset_left _ h, List.subset_append_of_subset_right _ h'⟩

/-- The sites of class statements are places of their stores. -/
theorem sites_subset {m : SourceModule} : ∀ (nodes : List Node) (container : Option String),
    (extractClasses m container nodes).flatMap Extracted.sites ⊆
      (Node.classStoresAll nodes).map storePlace
  | [], _ => by
    rw [extractClasses]
    exact List.nil_subset _
  | n :: rest, container => by
    rw [extractClasses, Node.classStoresAll, List.flatMap_append, List.map_append]
    refine append_subset_append ?_ (sites_subset rest container)
    cases n with
    | classDef p name bases keywords body decorators =>
      rw [extractClass, Option.toList_some, List.flatMap_singleton, sites_of, Node.classStores,
        List.map_append]
      exact append_subset_append (sites_subset body _) (Members.sites_ofBody_subset _ body)
    | _ => rw [extractClass] <;> first | exact List.nil_subset _ | simp
  termination_by nodes => sizeOf nodes

/-- Some stores with their sites are part of more of them, where the other sites are places of the
other stores. -/
def Splits (stores : List (Node × String)) (sites : List FieldSite) (own : List (Node × String))
    (ownSites : List FieldSite) : Prop :=
  ∃ front back others others', stores = front ++ own ++ back ∧
    sites = others ++ ownSites ++ others' ∧ others ⊆ front.map storePlace ∧
    others' ⊆ back.map storePlace

theorem Splits.trans {stores own inner : List (Node × String)}
    {sites ownSites innerSites : List FieldSite} (h : Splits stores sites own ownSites)
    (h' : Splits own ownSites inner innerSites) : Splits stores sites inner innerSites := by
  obtain ⟨front, back, others, others', rfl, rfl, hothers, hothers'⟩ := h
  obtain ⟨front', back', more, more', rfl, rfl, hmore, hmore'⟩ := h'
  refine ⟨front ++ front', back' ++ back, others ++ more, more' ++ others', by simp, by simp, ?_,
    ?_⟩
  · rw [List.map_append]
    exact append_subset_append hothers hmore
  · rw [List.map_append]
    exact append_subset_append hmore' hothers'

/-- The stores and sites of one class statement among several. -/
theorem splits_of_mem {m : SourceModule} {container : Option String} {nodes : List Node} {n : Node}
    (hn : n ∈ nodes) :
    Splits (Node.classStoresAll nodes) ((extractClasses m container nodes).flatMap Extracted.sites)
      n.classStores ((extractClass m container n).toList.flatMap Extracted.sites) := by
  induction nodes with
  | nil => cases hn
  | cons first rest ih =>
    rw [Node.classStoresAll, extractClasses, List.flatMap_append]
    have hself : (extractClass m container first).toList.flatMap Extracted.sites ⊆
        first.classStores.map storePlace := by
      have hsites := sites_subset (m := m) [first] container
      simpa [extractClasses, Node.classStoresAll] using hsites
    rcases List.mem_cons.mp hn with rfl | hn
    · exact ⟨[], _, [], _, rfl, rfl, List.nil_subset _, sites_subset rest container⟩
    · obtain ⟨front, back, others, others', hstores, hsites, hothers, hothers'⟩ := ih hn
      refine ⟨first.classStores ++ front, back,
        (extractClass m container first).toList.flatMap Extracted.sites ++ others, others',
        ?_, ?_, ?_, hothers'⟩
      · rw [hstores]
        simp
      · rw [hsites]
        simp
      · rw [List.map_append]
        exact append_subset_append hself hothers

namespace SourceModule

variable {m : SourceModule} {container : Option String}

/-- The stores and sites of a declared class among those of its module. -/
theorem splits_of_declares {n : Node} (h : m.Declares container n) :
    Splits m.stores (extractModule m).sites n.classStores
      ((extractClass m container n).toList.flatMap Extracted.sites) := by
  induction h with
  | level hn =>
    rw [extractModule, ← extractClasses_eq]
    exact splits_of_mem hn
  | @nested container p name bases keywords body decorators n h hn ih =>
    refine ih.trans (Splits.trans ?_ (splits_of_mem hn))
    rw [extractClass, Option.toList_some, List.flatMap_singleton, sites_of, Node.classStores]
    exact ⟨[], _, [], _, rfl, rfl, List.nil_subset _, Members.sites_ofBody_subset _ body⟩

variable {p : Place} {name : String} {bases keywords body decorators : List Node}

theorem splits_own (h : m.Declares container (.classDef p name bases keywords body decorators)) :
    Splits m.stores (extractModule m).sites (body.flatMap receiverStores)
      (Members.ofBody (ClassName.of m name container) body).2 := by
  refine (splits_of_declares h).trans ?_
  rw [extractClass, Option.toList_some, List.flatMap_singleton, sites_of, Node.classStores]
  exact ⟨Node.classStoresAll body, [], _, [], (List.append_nil _).symm, (List.append_nil _).symm,
    sites_subset body _, List.nil_subset _⟩

/-- Where no two stores have the same place, a store in a method of a declared class stands at a
site of the module if it does at one of the class. -/
theorem mem_sites_iff (hplaces : (m.stores.map storePlace).Nodup)
    (hC : m.Declares container (.classDef p name bases keywords body decorators))
    {e : Node × String} (he : e ∈ body.flatMap receiverStores) :
    storePlace e ∈ (extractModule m).sites ↔
      storePlace e ∈ (Members.ofBody (ClassName.of m name container) body).2 := by
  obtain ⟨front, back, others, others', hstores, hsites, hothers, hothers'⟩ := splits_own hC
  have hown : storePlace e ∈ (body.flatMap receiverStores).map storePlace :=
    List.mem_map_of_mem he
  rw [hstores, List.map_append, List.map_append, List.nodup_append', List.nodup_append'] at hplaces
  obtain ⟨⟨-, -, hfront⟩, -, hback⟩ := hplaces
  rw [hsites, List.mem_append, List.mem_append]
  refine ⟨?_, fun h => .inl (.inr h)⟩
  rintro ((h | h) | h)
  · exact absurd hown (List.disjoint_left.mp hfront (hothers h))
  · exact h
  · exact absurd (hothers' h) (List.disjoint_left.mp hback (List.mem_append_right _ hown))

/-- So that place is the one of a single store. -/
theorem eq_of_storePlace_eq (hplaces : (m.stores.map storePlace).Nodup)
    (hC : m.Declares container (.classDef p name bases keywords body decorators))
    {e e' : Node × String} (he : e ∈ body.flatMap receiverStores)
    (he' : e' ∈ body.flatMap receiverStores) (h : storePlace e = storePlace e') : e = e' := by
  obtain ⟨front, back, -, -, hstores, -⟩ := splits_own hC
  refine List.inj_on_of_nodup_map hplaces ?_ ?_ h
  · simp [hstores, List.mem_flatMap.mp he]
  · simp [hstores, List.mem_flatMap.mp he']

/-- A field that is declared by stores to receivers only has the place of one store as its site: the
one that leads the stores of the first method that assigns to it, if there is such a one. -/
theorem mem_sites_iff_of_leading (hplaces : (m.stores.map storePlace).Nodup)
    (hC : m.Declares container (.classDef p name bases keywords body decorators))
    {receiver attr : String} {before after : List Node} {M first : Node}
    (honly : (Members.atLevel (ClassName.of m name container) body).taken attr = false)
    (hbody : body = before ++ M :: after)
    (hbefore : ∀ N ∈ before, storeTo (methodStores N) attr = false)
    (hM : M.receiver? = some receiver) (hfirst : Leading receiver attr M first) {n : Node}
    (hn : (n, attr) ∈ body.flatMap receiverStores) :
    ⟨n.position, attr⟩ ∈ (extractModule m).sites ↔ n = first := by
  have hhead : ((body.flatMap methodStores).filter fun e => e.2 = attr).head? =
      some (first, attr) := by
    have hstores := head?_stores_of_leading hfirst hM
    rw [hbody, List.filter_flatMap, Node.head?_flatMap_of_first
      (fun N hN => storeTo_eq_false_iff.mp (hbefore N hN)) ?_, hstores]
    rintro hnil
    rw [hnil] at hstores
    cases hstores
  have hmem : (first, attr) ∈ body.flatMap receiverStores := by
    obtain ⟨N, hN, he⟩ := List.mem_flatMap.mp
      (List.mem_filter.mp (List.mem_of_mem_head? hhead)).1
    exact List.mem_flatMap.mpr ⟨N, hN, methodStores_subset N he⟩
  rw [show (⟨n.position, attr⟩ : FieldSite) = storePlace (n, attr) from rfl,
    mem_sites_iff hplaces hC hn, Members.sites_ofBody, mem_firstStores_iff]
  show _ ∧ ((body.flatMap methodStores).filter fun e => e.2 = attr).head?.map _ = _ ↔ _
  rw [hhead]
  constructor
  · rintro ⟨-, hposition⟩
    have hposition : first.position = n.position := Option.some.inj hposition
    have heq := eq_of_storePlace_eq hplaces hC hn hmem (by rw [storePlace, storePlace, hposition])
    exact congrArg Prod.fst heq
  · rintro rfl
    exact ⟨honly, rfl⟩

end SourceModule

end Concordance
