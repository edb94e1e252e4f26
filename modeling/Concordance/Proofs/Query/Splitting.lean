import Concordance.Proofs.Query.Answering
import Mathlib.Data.List.Dedup
import Mathlib.Data.List.Perm.Basic

/-!
# Queries split

A query without a namespace asks for everything that the queries for the single namespaces ask for,
and a query for both accessors for what those for one accessor ask for. Its rows are those of the
parts put together and sorted again: none is lost and none is added.

That is not so for every graph. Repeats are dropped by id, the first one staying, and a namespace is
looked at before that. So the parts only add up if the id of a symbol tells which part it belongs
to: its namespace, or whether it is a getter or a setter. Then dropping repeats in a part is the
same as taking the part of what is left when repeats have been dropped, both for symbols and for
the places where they are referred to.

## Main definitions

* `Graph.types`: the types that a graph declares
* `Graph.Homed`: ids tell namespaces
* `Graph.AccessorsApart`: ids tell getters from setters

## Main results

* `firstOfEach_filter`: the first of each in a part that the key tells
* `symbolsNamed_home`, `symbolsNamed_accessors`: what a part of a query names
* `found_filter`: what is found for a part of the symbols
* `answer_splits`: queries split by namespaces and by accessors
-/

namespace Concordance

/-! ### Graphs whose parts are told apart -/

/-- The types that a graph declares, inside others or not. -/
def Graph.types (g : Graph) : List Symbol :=
  (g.projects.flatMap fun p => p.declarations.flatMap Symbol.walk).filter fun s => s.kind = .type

/-- The accessors that a property has. -/
def Symbol.ownAccessors (s : Symbol) : List Symbol := s.getter.toList ++ s.setter.toList

/-- The id of a symbol tells its namespace, which types share with their members and the accessors
of these, and which is not empty. -/
def Graph.Homed (g : Graph) (homeOf : String → String) : Prop :=
  ∀ t ∈ g.types, t.home ≠ "" ∧
    ∀ s ∈ t :: t.members ++ t.members.flatMap Symbol.ownAccessors,
      s.home = t.home ∧ homeOf s.id = s.home

/-- No getter has the id of a setter. -/
def Graph.AccessorsApart (g : Graph) : Prop :=
  ∀ p ∈ g.types.flatMap Symbol.members, ∀ q ∈ g.types.flatMap Symbol.members,
    ∀ a ∈ p.getter.toList, ∀ b ∈ q.setter.toList, a.id ≠ b.id

/-- The ids of the getters that types have. -/
def Graph.getterIds (g : Graph) : List String :=
  (g.types.flatMap Symbol.members).flatMap fun p => p.getter.toList.map Symbol.id

instance (g : Graph) (homeOf : String → String) : Decidable (g.Homed homeOf) :=
  inferInstanceAs (Decidable (∀ t ∈ g.types, t.home ≠ "" ∧
    ∀ s ∈ t :: t.members ++ t.members.flatMap Symbol.ownAccessors,
      s.home = t.home ∧ homeOf s.id = s.home))

instance (g : Graph) : Decidable g.AccessorsApart :=
  inferInstanceAs (Decidable (∀ p ∈ g.types.flatMap Symbol.members,
    ∀ q ∈ g.types.flatMap Symbol.members, ∀ a ∈ p.getter.toList, ∀ b ∈ q.setter.toList,
      a.id ≠ b.id))

namespace Query

/-! ### Parts of lists -/

section

variable {α β γ : Type}

/-- If the key of a member tells whether it belongs to a part, then the first of each in the part
are those of the first of each that belong to it. -/
theorem firstOfEach_filter [DecidableEq β] {key : α → β} {p : α → Bool} {l : List α}
    (h : ∀ a ∈ l, ∀ b ∈ l, key a = key b → p a = p b) :
    firstOfEach key (l.filter p) = (firstOfEach key l).filter p := by
  induction l with
  | nil => rfl
  | cons a l ih =>
    have hrest := ih fun b hb d hd => h b (List.mem_cons_of_mem a hb) d (List.mem_cons_of_mem a hd)
    cases ha : p a with
    | true =>
      rw [List.filter_cons_of_pos ha, firstOfEach, firstOfEach, List.filter_cons_of_pos ha, hrest,
        List.filter_comm]
    | false =>
      rw [List.filter_cons_of_neg (by simp [ha]), firstOfEach,
        List.filter_cons_of_neg (by simp [ha]), List.filter_filter, hrest]
      refine List.filter_congr fun b hb => ?_
      have hmem := (firstOfEach_sublist key l).subset hb
      by_cases hkey : key b = key a
      · rw [h b (List.mem_cons_of_mem a hmem) a List.mem_cons_self hkey, ha, Bool.false_and]
      · simp [hkey]

/-- What parts of a list lead to is the part of what the list leads to. -/
theorem flatMap_filter_eq {f : α → List γ} {q : α → Bool} {p : γ → Bool} {l : List α}
    (h : ∀ a ∈ l, ∀ b ∈ f a, p b = q a) : (l.filter q).flatMap f = (l.flatMap f).filter p := by
  induction l with
  | nil => rfl
  | cons a l ih =>
    have hrest := ih fun b hb => h b (List.mem_cons_of_mem a hb)
    have hfirst : ∀ b ∈ f a, p b = q a := h a List.mem_cons_self
    rw [List.flatMap_cons, List.filter_append, ← hrest]
    cases ha : q a with
    | true =>
      rw [List.filter_cons_of_pos ha, List.flatMap_cons,
        List.filter_eq_self.mpr fun b hb => (hfirst b hb).trans ha]
    | false =>
      have hnone : (f a).filter p = [] :=
        List.filter_eq_nil_iff.mpr fun b hb => by simp [hfirst b hb, ha]
      rw [List.filter_cons_of_neg (by simp [ha]), hnone, List.nil_append]

/-- A list is put together from its parts. -/
theorem perm_flatMap_filter [DecidableEq β] {f : α → β} {keys : List β} (hkeys : keys.Nodup)
    {l : List α} (h : ∀ a ∈ l, f a ∈ keys) :
    (keys.flatMap fun k => l.filter fun a => f a = k).Perm l := by
  induction keys generalizing l with
  | nil =>
    rw [List.eq_nil_iff_forall_not_mem.mpr fun a ha => List.not_mem_nil (h a ha)]
    exact .refl _
  | cons k keys ih =>
    obtain ⟨hk, hkeys⟩ := List.nodup_cons.mp hkeys
    have hothers : (keys.flatMap fun k' => l.filter fun a => f a = k') =
        keys.flatMap fun k' => (l.filter fun a => !decide (f a = k)).filter fun a => f a = k' := by
      refine List.flatMap_congr fun k' hk' => ?_
      rw [List.filter_filter]
      refine List.filter_congr fun a _ => ?_
      by_cases ha : f a = k'
      · have hne : k' ≠ k := fun heq => hk (heq ▸ hk')
        simp [ha, hne]
      · simp [ha]
    have hrest := ih hkeys (l := l.filter fun a => !decide (f a = k)) fun a ha => by
      obtain ⟨hmem, hne⟩ := List.mem_filter.mp ha
      exact (List.mem_cons.mp (h a hmem)).resolve_left (by simpa using hne)
    rw [List.flatMap_cons, hothers]
    exact (hrest.append_left _).trans (List.filter_append_perm _ l)

end

/-! ### What parts of a query name -/

variable {g : Graph} {f : Filter} {kind : Option MemberKind} {homeOf : String → String}

theorem mem_types_of_mem_typesNamed {t : Symbol} (h : t ∈ typesNamed g f) : t ∈ g.types := by
  obtain ⟨hmem, hnames⟩ := List.mem_filter.mp ((firstOfEach_sublist _ _).subset h)
  exact List.mem_filter.mpr ⟨hmem, decide_eq_true (of_decide_eq_true hnames).1⟩

/-- The types of a name that lie in a namespace. -/
theorem typesNamed_home (h : g.Homed homeOf) {home : String} (hne : home ≠ "") :
    typesNamed g { f with home := some home } =
      (typesNamed g { f with home := none }).filter fun s => homeOf s.id = home := by
  have hhome : ∀ s ∈ g.types, homeOf s.id = s.home := fun s hs =>
    ((h s hs).2 s (List.mem_append_left _ List.mem_cons_self)).2
  rw [typesNamed, typesNamed, ← firstOfEach_filter fun a _ b _ hid => by rw [hid],
    List.filter_filter]
  congr 1
  refine List.filter_congr fun s hs => ?_
  by_cases htype : s.kind = .type
  · rw [hhome s (List.mem_filter.mpr ⟨hs, decide_eq_true htype⟩)]
    simp [Filter.Names, htype, hne, and_comm]
  · simp [Filter.Names, htype]

/-- What a query names of a type lies in the namespace of the type. -/
theorem home_of_mem_membersOf (h : g.Homed homeOf) {t s : Symbol} (ht : t ∈ g.types)
    {k : MemberKind} (hs : s ∈ f.membersOf k t) : homeOf s.id = t.home := by
  obtain ⟨m, hm, hcounts⟩ := List.mem_flatMap.mp hs
  have hmember : m ∈ t.members := (List.mem_filter.mp hm).1
  have hof (a : Symbol) (ha : a ∈ t :: t.members ++ t.members.flatMap Symbol.ownAccessors) :
      homeOf a.id = t.home := by
    obtain ⟨hhome, hid⟩ := (h t ht).2 a ha
    rw [hid, hhome]
  cases k with
  | property =>
    refine hof s (List.mem_append_right _ (List.mem_flatMap.mpr ⟨m, hmember, ?_⟩))
    rw [Filter.countsAs, List.mem_append] at hcounts
    rw [Symbol.ownAccessors, List.mem_append]
    refine hcounts.imp (fun hget => ?_) (fun hset => ?_)
    · split at hget
      · exact hget
      · cases hget
    · split at hset
      · exact hset
      · cases hset
  | method =>
    rw [List.mem_singleton.mp hcounts]
    exact hof m (List.mem_append_left _ (List.mem_cons_of_mem _ hmember))
  | field =>
    rw [List.mem_singleton.mp hcounts]
    exact hof m (List.mem_append_left _ (List.mem_cons_of_mem _ hmember))

/-- **A query for a namespace** names what the query without one names in it. -/
theorem symbolsNamed_home (h : g.Homed homeOf) {home : String} (hne : home ≠ "") :
    symbolsNamed g { f with home := some home } kind =
      (symbolsNamed g { f with home := none } kind).filter fun s => homeOf s.id = home := by
  cases kind with
  | none => exact typesNamed_home h hne
  | some k =>
    rw [symbolsNamed, symbolsNamed, ← firstOfEach_filter fun a _ b _ hid => by rw [hid],
      typesNamed_home h hne]
    congr 1
    refine flatMap_filter_eq fun t ht s hs => ?_
    have htypes := mem_types_of_mem_typesNamed ht
    have hhome : homeOf t.id = t.home :=
      ((h t htypes).2 t (List.mem_append_left _ List.mem_cons_self)).2
    rw [home_of_mem_membersOf h htypes hs, hhome]

/-- What is named lies in the namespace of a type of the name. -/
theorem home_mem_of_mem_symbolsNamed (h : g.Homed homeOf) {s : Symbol}
    (hs : s ∈ symbolsNamed g { f with home := none } kind) :
    homeOf s.id ∈ (typesNamed g { f with home := none }).map Symbol.home := by
  cases kind with
  | none =>
    have hhome := ((h s (mem_types_of_mem_typesNamed hs)).2 s
      (List.mem_append_left _ List.mem_cons_self)).2
    exact hhome ▸ List.mem_map_of_mem hs
  | some k =>
    obtain ⟨t, ht, hmember⟩ := List.mem_flatMap.mp ((firstOfEach_sublist _ _).subset hs)
    rw [home_of_mem_membersOf h (mem_types_of_mem_typesNamed ht) hmember]
    exact List.mem_map_of_mem ht

/-- A property counts as its getter, or as its setter, among what it counts as if both are asked
for. -/
theorem countsAs_accessors (h : g.AccessorsApart) {t m : Symbol} (ht : t ∈ g.types)
    (hm : m ∈ t.members) :
    ({ f with accessors := .get } : Filter).countsAs .property m =
      (({ f with accessors := .both } : Filter).countsAs .property m).filter
        (fun s => s.id ∈ g.getterIds) ∧
    ({ f with accessors := .set } : Filter).countsAs .property m =
      (({ f with accessors := .both } : Filter).countsAs .property m).filter
        (fun s => s.id ∉ g.getterIds) := by
  have hmember : m ∈ g.types.flatMap Symbol.members := List.mem_flatMap.mpr ⟨t, ht, hm⟩
  have hget : ∀ a ∈ m.getter.toList, a.id ∈ g.getterIds := fun a ha =>
    List.mem_flatMap.mpr ⟨m, hmember, List.mem_map_of_mem ha⟩
  have hset : ∀ b ∈ m.setter.toList, b.id ∉ g.getterIds := by
    intro b hb hid
    obtain ⟨p, hp, hgetter⟩ := List.mem_flatMap.mp hid
    obtain ⟨a, ha, heq⟩ := List.mem_map.mp hgetter
    exact h p hp m hmember a ha b hb heq
  have hboth : ({ f with accessors := .both } : Filter).countsAs .property m =
      m.getter.toList ++ m.setter.toList := rfl
  rw [hboth, List.filter_append, List.filter_append]
  constructor
  · rw [List.filter_eq_self.mpr fun a ha => decide_eq_true (hget a ha),
      List.filter_eq_nil_iff.mpr fun b hb => by simpa using hset b hb]
    rfl
  · rw [List.filter_eq_self.mpr fun b hb => decide_eq_true (hset b hb),
      List.filter_eq_nil_iff.mpr fun a ha => by simpa using hget a ha]
    rfl

/-- **A query for one accessor** names the getters, or the others, of what the query for both
names. -/
theorem symbolsNamed_accessors (h : g.AccessorsApart) :
    symbolsNamed g { f with accessors := .get } (some .property) =
      (symbolsNamed g { f with accessors := .both } (some .property)).filter
        (fun s => s.id ∈ g.getterIds) ∧
    symbolsNamed g { f with accessors := .set } (some .property) =
      (symbolsNamed g { f with accessors := .both } (some .property)).filter
        (fun s => s.id ∉ g.getterIds) := by
  have hmember : ∀ t ∈ typesNamed g f, ∀ m ∈ t.members.filter fun m =>
      m.kind = MemberKind.property.toSymbolKind ∧ some m.name = f.memberName,
        t ∈ g.types ∧ m ∈ t.members := fun t ht m hm =>
    ⟨mem_types_of_mem_typesNamed ht, (List.mem_filter.mp hm).1⟩
  constructor
  · rw [symbolsNamed, symbolsNamed, ← firstOfEach_filter fun a _ b _ hid => by rw [hid]]
    refine congrArg _ (Eq.trans ?_ List.filter_flatMap.symm)
    refine List.flatMap_congr fun t ht => Eq.trans ?_ List.filter_flatMap.symm
    exact List.flatMap_congr fun m hm =>
      (countsAs_accessors h (hmember t ht m hm).1 (hmember t ht m hm).2).1
  · rw [symbolsNamed, symbolsNamed, ← firstOfEach_filter fun a _ b _ hid => by rw [hid]]
    refine congrArg _ (Eq.trans ?_ List.filter_flatMap.symm)
    refine List.flatMap_congr fun t ht => Eq.trans ?_ List.filter_flatMap.symm
    exact List.flatMap_congr fun m hm =>
      (countsAs_accessors h (hmember t ht m hm).1 (hmember t ht m hm).2).2

/-! ### What is found for a part -/

variable {find : String → List Location}

/-- The places that are found for some symbols, each once. -/
def found (find : String → List Location) (symbols : List Symbol) : List Hit :=
  firstOfEach Hit.key (hits find symbols)

/-- What is found for a part of some symbols is the part of what is found for all of them. -/
theorem found_filter {symbols : List Symbol} (hids : (symbols.map Symbol.id).Nodup)
    (p : Symbol → Bool) :
    found find (symbols.filter p) = (found find symbols).filter fun h => p h.1 := by
  have hhits : hits find (symbols.filter p) = (hits find symbols).filter fun h => p h.1 := by
    refine flatMap_filter_eq fun s _ h hh => ?_
    obtain ⟨l, -, rfl⟩ := List.mem_map.mp hh
    rfl
  rw [found, found, hhits]
  refine firstOfEach_filter fun a ha b hb hkey => ?_
  rw [eq_of_key_eq hids ha hb hkey]

theorem mem_symbols_of_mem_found {symbols : List Symbol} {h : Hit} (hh : h ∈ found find symbols) :
    h.1 ∈ symbols :=
  (mem_hits.mp ((firstOfEach_sublist _ _).subset hh)).1

/-- Rows that are put together from sorted parts are the rows of the parts put together. -/
theorem sort_eq_of_perm {rows parts : List Row} (h : parts.Perm rows) :
    rows.insertionSort (fun a b => a.order ≤ b.order) = Row.sort parts := by
  rw [Row.sort_eq, Row.insertionSort_eq_of_perm h]

theorem reference_perm (find : String → List Location) (g : Graph) (f : Filter)
    (kind : Option MemberKind) :
    (reference find g f kind).Perm ((found find (symbolsNamed g f kind)).map Hit.row) :=
  List.perm_insertionSort _ _

/-- **The queries for the single namespaces** have the rows of the query without one. -/
theorem reference_home (h : g.Homed homeOf) :
    reference find g { f with home := none } kind =
      Row.sort ((((typesNamed g { f with home := none }).map Symbol.home).dedup).flatMap
        fun home => reference find g { f with home := some home } kind) := by
  have hids := nodup_symbolsNamed g { f with home := none } kind
  refine sort_eq_of_perm ?_
  have hpart : ∀ home ∈ ((typesNamed g { f with home := none }).map Symbol.home).dedup,
      (reference find g { f with home := some home } kind).Perm
        (((found find (symbolsNamed g { f with home := none } kind)).filter
          fun hit => homeOf hit.1.id = home).map Hit.row) := by
    intro home hhome
    obtain ⟨t, ht, rfl⟩ := List.mem_map.mp (List.mem_dedup.mp hhome)
    have hne := (h t (mem_types_of_mem_typesNamed ht)).1
    rw [← found_filter hids fun s => homeOf s.id = t.home, ← symbolsNamed_home h hne]
    exact reference_perm find g _ kind
  refine (List.Perm.flatMap_left _ hpart).trans ?_
  rw [← List.map_flatMap]
  refine (perm_flatMap_filter (f := fun hit : Hit => homeOf hit.1.id) (List.nodup_dedup _)
    fun hit hhit => ?_).map Hit.row
  exact List.mem_dedup.mpr (home_mem_of_mem_symbolsNamed h (mem_symbols_of_mem_found hhit))

/-- **The queries for the single accessors** have the rows of the query for both. -/
theorem reference_accessors (h : g.AccessorsApart) :
    reference find g { f with accessors := .both } (some .property) =
      Row.sort (reference find g { f with accessors := .get } (some .property) ++
        reference find g { f with accessors := .set } (some .property)) := by
  have hids := nodup_symbolsNamed g { f with accessors := .both } (some .property)
  obtain ⟨hget, hset⟩ := symbolsNamed_accessors (f := f) h
  refine sort_eq_of_perm (((reference_perm ..).append (reference_perm ..)).trans ?_)
  rw [hget, hset, found_filter hids, found_filter hids, ← List.map_append]
  refine List.Perm.map _ ?_
  simp only [decide_not]
  exact List.filter_append_perm (fun hit : Hit => decide (hit.1.id ∈ g.getterIds)) _

/-! ### Queries -/

variable {σ : Type}

/-- **Queries split.** In a graph in which ids tell namespaces and getters from setters, and with
any search that goes by ids, the rows of a query without a namespace are the rows of the same query
for each of the namespaces of the types that it resolves to, put together and sorted; and the rows
of a query for both accessors of a property are those of its getters and of its setters. -/
theorem answer_splits {search : Search σ} (hfind : Finds search g find) (hvalid : f.Valid kind)
    (hhomed : g.Homed homeOf) (hapart : g.AccessorsApart) :
    (∃ types, (resolveTypes g f.typeName none : Metered σ (List Symbol)).Ends (.ok types) ∧
      ∃ rows : Option String → List Row,
        (∀ home, (answer search g { f with home } kind).Ends (.ok (rows home))) ∧
        rows none = Row.sort ((types.map Symbol.home).dedup.flatMap fun home =>
          rows (some home))) ∧
    (kind = some .property → ∃ rows : AccessorSelection → List Row,
      (∀ accessors, (answer search g { f with accessors } kind).Ends (.ok (rows accessors))) ∧
      rows .both = Row.sort (rows .get ++ rows .set)) := by
  constructor
  · refine ⟨typesNamed g { f with home := none },
      resolveTypes_ends (f := { f with home := none }) hvalid.typeName,
      fun home => reference find g { f with home } kind, fun home => ?_, reference_home hhomed⟩
    have hvalid' : ({ f with home } : Filter).Valid kind :=
      ⟨hvalid.typeName, hvalid.memberName⟩
    exact (answer_ends_reference hfind hvalid').1
  · rintro rfl
    refine ⟨fun accessors => reference find g { f with accessors } (some .property),
      fun accessors => ?_, reference_accessors hapart⟩
    have hvalid' : ({ f with accessors } : Filter).Valid (some .property) :=
      ⟨hvalid.typeName, hvalid.memberName⟩
    exact (answer_ends_reference hfind hvalid').1

/-- Two projects with a type of one name in different namespaces, each with a property of the same
name. Places where they are referred to lie between each other. -/
def market : Graph :=
  let accessor (id home role : String) : Symbol :=
    .method ⟨id, "size", home, none, "size"⟩ (some role)
  let stall (id home : String) (setter : Option Symbol) : Symbol :=
    .type ⟨id, "Stall", home, none, "Stall"⟩
      [.property ⟨id ++ ".size", "size", home, some "Stall", "size"⟩
        (some (accessor (id ++ ".get") home "get")) setter]
  { projects :=
      [{ name := .string "p"
         declarations := [stall "p:Stall" "one" (some (accessor "p:Stall.set" "one" "set"))] },
        { name := .string "q", declarations := [stall "q:Stall" "two" none] }]
    references :=
      [[("p:Stall.get", [⟨"/c", 1, true⟩, ⟨"/a", 5, true⟩, ⟨"/c", 1, true⟩]),
          ("p:Stall.set", [⟨"/b", 2, true⟩])],
        [("q:Stall.get", [⟨"/b", 7, true⟩, ⟨"/a", 5, true⟩])]] }

/-- The rows of the two namespaces lie between each other, and one row is in both: it comes twice in
the answer without a namespace. -/
theorem answer_splits_market :
    let f : Filter := { typeName := "stall", memberName := some "size" }
    let homeOf (id : String) : String := if id.toList.head? = some 'p' then "one" else "two"
    let row (path : String) (line : Int) : Row := ⟨"size", path, line⟩
    f.Valid (some .property) ∧ market.Homed homeOf ∧ market.AccessorsApart ∧
      ∃ rows : Option String → List Row,
        (∀ home, (answer indexed market { f with home } (some .property) :
          Metered Unit (List Row)).Ends (.ok (rows home))) ∧
        rows (some "one") = [row "/a" 5, row "/b" 2, row "/c" 1] ∧
        rows (some "two") = [row "/a" 5, row "/b" 7] ∧
        rows none = Row.sort (["one", "two"].flatMap fun home => rows (some home)) ∧
        rows none = [row "/a" 5, row "/a" 5, row "/b" 2, row "/b" 7, row "/c" 1] := by
  intro f homeOf row
  have hcheck : Filter.check (some "stall") none (some "size") none = .ok f := by decide +kernel
  have hvalid : f.Valid (some .property) := Filter.valid_of_check hcheck fun _ => rfl
  have hhomed : market.Homed homeOf := by decide +kernel
  have hapart : market.AccessorsApart := by decide +kernel
  obtain ⟨⟨types, htypes, rows, hrows, hsplit⟩, -⟩ :=
    answer_splits (σ := Unit) (finds_indexed market) hvalid hhomed hapart
  have hreference (home : Option String) :
      rows home = reference (located market) market { f with home } (some .property) := by
    have hvalid' : ({ f with home } : Filter).Valid (some .property) :=
      ⟨hvalid.typeName, hvalid.memberName⟩
    exact Except.ok.inj <| (hrows home).unique <|
      (answer_ends_reference (finds_indexed market) hvalid').1
  have hhomes : (types.map Symbol.home).dedup = ["one", "two"] := by
    obtain rfl := Except.ok.inj (htypes.unique (resolveTypes_ends (f := f) hvalid.typeName))
    decide +kernel
  rw [hhomes] at hsplit
  refine ⟨hvalid, hhomed, hapart, rows, hrows, ?_, ?_, hsplit, ?_⟩
  · rw [hreference]
    decide +kernel
  · rw [hreference]
    decide +kernel
  · rw [hreference]
    decide +kernel

end Query

end Concordance
