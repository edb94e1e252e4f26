import Concordance.Proofs.Declaration.Members
import Concordance.Proofs.Declaration.Naming
import Concordance.Proofs.Query.Answering

/-!
# Queries for classes and their members

Each class, and each of its methods, fields and accessors, has a query that is meant for it: the
name of the class in its namespace, and for a member also its kind and name. The lookup by name sees
the types of the module level and what they hold, so a class that a later statement of its name
replaces is not seen. Of symbols with one id it keeps the first.

So what a query for a class selects is said for the classes that are in effect. For them the query
selects what it is meant for, whatever else the modules declare.

## Main definitions

* `Symbol.Asks`: the query for a type, or for what a type holds
* `SourceModule.InEffect`: a class that is seen, the only one of its qualified name

## Main results

* `Symbol.Asks.id_mem_symbolsNamed`: a type that is named brings along what it is asked for
* `exists_meant_of_inEffect`: a query for a class in effect selects what it is meant for
-/

namespace Concordance

open Syntax Query

/-! ### The first of each -/

namespace Query

variable {α β : Type} [DecidableEq β] {key : α → β} {a : α} {l : List α}

/-- Each key has a first member. -/
theorem key_mem_firstOfEach (h : a ∈ l) : key a ∈ (firstOfEach key l).map key := by
  induction l with
  | nil => cases h
  | cons b rest ih =>
    rw [firstOfEach, List.map_cons, List.mem_cons]
    by_cases heq : key a = key b
    · exact .inl heq
    · obtain ⟨x, hx, hkey⟩ := List.mem_map.mp
        (ih ((List.mem_cons.mp h).resolve_left fun hab => heq (congrArg key hab)))
      refine .inr (List.mem_map.mpr ⟨x, List.mem_filter.mpr ⟨hx, ?_⟩, hkey⟩)
      simpa [hkey] using heq

/-- A member that has its key alone is the first of it. -/
theorem mem_firstOfEach_of_unique (h : a ∈ l) (huniq : ∀ b ∈ l, key b = key a → b = a) :
    a ∈ firstOfEach key l := by
  have hmem : key a ∈ (firstOfEach key l).map key := key_mem_firstOfEach h
  obtain ⟨b, hb, hkey⟩ := List.mem_map.mp hmem
  exact huniq b ((firstOfEach_sublist key l).subset hb) hkey ▸ hb

end Query

/-! ### Queries for symbols -/

namespace Symbol

/-- The query for a type: its name, in its namespace. -/
def filter (t : Symbol) : Query.Filter := { typeName := t.name, home := some t.home }

/-- The query for a type, or for what it holds: its methods and fields and the accessors of its
properties. -/
inductive Asks (t : Symbol) : Symbol → Query.Filter → Option MemberKind → Prop
  | itself : t.Asks t t.filter none
  | member {s : Symbol} {k : MemberKind} (hs : s ∈ t.members) (hkind : s.kind = k.toSymbolKind)
      (hk : k ≠ .property) : t.Asks s { t.filter with memberName := some s.name } (some k)
  | getter {p s : Symbol} (hp : p ∈ t.members) (hs : p.getter = some s) :
      t.Asks s { t.filter with memberName := some p.name, accessors := .get } (some .property)
  | setter {p s : Symbol} (hp : p ∈ t.members) (hs : p.setter = some s) :
      t.Asks s { t.filter with memberName := some p.name, accessors := .set } (some .property)

variable {t s p : Symbol} {f : Query.Filter} {kind : Option MemberKind}

theorem kind_of_getter (h : p.getter = some s) : p.kind = .property := by
  cases p with
  | property => rfl
  | _ => cases h

theorem kind_of_setter (h : p.setter = some s) : p.kind = .property := by
  cases p with
  | property => rfl
  | _ => cases h

/-- A query for a type asks for its name. -/
theorem Asks.names (h : t.Asks s f kind) (ht : t.kind = .type) : f.Names t := by
  cases h <;> exact ⟨ht, rfl, by rintro _ ⟨⟩ _; rfl⟩

/-- Where no names are blank, such queries are asked. -/
theorem Asks.valid (h : t.Asks s f kind) (ht : Text.isBlankText t.name = false)
    (hmembers : ∀ m ∈ t.members, Text.isBlankText m.name = false) : f.Valid kind := by
  cases h with
  | itself => exact ⟨ht, nofun⟩
  | member hs => exact ⟨ht, fun _ => ⟨_, rfl, hmembers _ hs⟩⟩
  | getter hp => exact ⟨ht, fun _ => ⟨_, rfl, hmembers _ hp⟩⟩
  | setter hp => exact ⟨ht, fun _ => ⟨_, rfl, hmembers _ hp⟩⟩

/-- A type that a query names brings along what it is asked for. -/
theorem Asks.id_mem_symbolsNamed {g : Graph} (h : t.Asks s f kind) (ht : t ∈ typesNamed g f) :
    s.id ∈ (symbolsNamed g f kind).map Symbol.id := by
  have hmember {k : MemberKind} {m : Symbol} (hm : m ∈ t.members) (hkind : m.kind = k.toSymbolKind)
      (hname : some m.name = f.memberName) (hs : s ∈ f.countsAs k m) :
      s.id ∈ (symbolsNamed g f (some k)).map Symbol.id := by
    refine key_mem_firstOfEach (List.mem_flatMap.mpr ⟨t, ht, List.mem_flatMap.mpr ⟨m, ?_, hs⟩⟩)
    exact List.mem_filter.mpr ⟨hm, decide_eq_true ⟨hkind, hname⟩⟩
  cases h with
  | itself => exact List.mem_map_of_mem ht
  | @member _ k hs hkind hk =>
    refine hmember hs hkind rfl ?_
    cases k with
    | property => exact absurd rfl hk
    | _ => exact List.mem_singleton_self s
  | getter hp hs =>
    refine hmember hp (kind_of_getter hs) rfl ?_
    simp [Query.Filter.countsAs, AccessorSelection.takesGetter, hs]
  | setter hp hs =>
    refine hmember hp (kind_of_setter hs) rfl ?_
    simp [Query.Filter.countsAs, AccessorSelection.takesSetter, hs]

end Symbol

/-! ### Classes in effect -/

/-- A class of a module that is in effect: it is declared by a statement of the module level that no
later one of its name replaces, or within such a statement, and no other such class has its
qualified name. -/
structure SourceModule.InEffect (m : SourceModule) (d : ClassDecl) : Prop where
  stands : ∃ x, m.Stands x ∧ d ∈ x.all
  unique : ∀ x, m.Stands x → ∀ d' ∈ x.all,
    d'.symbol.qualifiedName = d.symbol.qualifiedName → d' = d

/-- The types that modules declare at their level. -/
def typeSymbolsOf (modules : List SourceModule) : List Symbol :=
  modules.flatMap fun m => (extractModule m).typeSymbols

section

variable {modules : List SourceModule} {project : String}
  (hproject : ∀ m ∈ modules, m.project = project)
  (hnames : (modules.map SourceModule.name).Nodup)
  (hparsed : ∀ m ∈ modules, ∃ source, parseModule source = .ok m.body)

include hparsed

/-- The types that are found among what modules declare are the classes of statements that stand. -/
theorem mem_walk_typeSymbolsOf {t : Symbol} (ht : t.kind = .type) :
    t ∈ (typeSymbolsOf modules).flatMap Symbol.walk ↔
      ∃ m ∈ modules, ∃ x, m.Stands x ∧ ∃ d ∈ x.all, d.symbol = t := by
  have hsound : ∀ m ∈ modules, ∀ x, m.Stands x → x.Sound := by
    intro m hm x hx
    obtain ⟨source, hsource⟩ := hparsed m hm
    exact SourceModule.sound_of_mem_statements (written_of_parseModule hsource) x hx.mem
  constructor
  · intro h
    obtain ⟨s, hs, h⟩ := List.mem_flatMap.mp h
    obtain ⟨m, hm, hs⟩ := List.mem_flatMap.mp hs
    obtain ⟨x, hx, rfl⟩ := SourceModule.mem_typeSymbols.mp hs
    exact ⟨m, hm, x, hx, ((hsound m hm x hx).walk t ht).mp h⟩
  · rintro ⟨m, hm, x, hx, hd⟩
    refine List.mem_flatMap.mpr ⟨x.own.symbol, ?_, ((hsound m hm x hx).walk t ht).mpr hd⟩
    exact List.mem_flatMap.mpr ⟨m, hm, SourceModule.mem_typeSymbols.mpr ⟨x, hx, rfl⟩⟩

include hproject hnames

/-- The id of a class in effect is that of no other type that is found. -/
theorem eq_of_id_eq {m m' : SourceModule} (hm : m ∈ modules) (hm' : m' ∈ modules)
    {d d' : ClassDecl} (hd : m.InEffect d) {x : Extracted} (hx : m'.Stands x) (hd' : d' ∈ x.all)
    (hid : d'.symbol.id = d.symbol.id) : d' = d := by
  have hnamed {m : SourceModule} (hm : m ∈ modules) {x : Extracted} (hx : m.Stands x)
      {d : ClassDecl} (hd : d ∈ x.all) :
      d.symbol.id = classId project m.name d.symbol.qualifiedName ∧
        ':' ∉ d.symbol.qualifiedName.toList := by
    obtain ⟨source, hsource⟩ := hparsed m hm
    obtain ⟨hid, hchars⟩ := named_of_mem_classes (List.mem_flatMap.mpr ⟨x, hx.mem, hd⟩)
    rw [hproject m hm] at hid
    exact ⟨hid, hchars ':' (by decide) (colon_notMem_of_parseModule hsource)⟩
  obtain ⟨x₀, hx₀, hmem⟩ := hd.stands
  obtain ⟨hid₀, hcolon₀⟩ := hnamed hm hx₀ hmem
  obtain ⟨hid', hcolon'⟩ := hnamed hm' hx hd'
  rw [hid₀, hid', classId_eq_iff_of_project hcolon' hcolon₀] at hid
  obtain rfl := List.inj_on_of_nodup_map hnames hm' hm hid.1
  exact hd.unique x hx d' hd' hid.2

/-- **A query for a class in effect, or for a member of one, selects what it is meant for**, in any
graph of one project with these modules. -/
theorem exists_meant_of_inEffect {σ : Type} {g : Graph}
    (hg : g.projects.flatMap Project.declarations = typeSymbolsOf modules)
    {m : SourceModule} (hm : m ∈ modules) {d : ClassDecl} (hd : m.InEffect d) {s : Symbol}
    {f : Query.Filter} {kind : Option MemberKind} (h : d.symbol.Asks s f kind) :
    ∃ symbols, (meant g f kind : Metered σ _).Ends (.ok symbols) ∧
      s.id ∈ symbols.map Symbol.id := by
  obtain ⟨x, hx, hmem⟩ := hd.stands
  obtain ⟨source, hsource⟩ := hparsed m hm
  have hsound := (SourceModule.sound_of_mem_statements (written_of_parseModule hsource) x
    hx.mem).classes d hmem
  refine ⟨symbolsNamed g f kind, meant_ends (h.valid hsound.name.not_blank fun s hs =>
    (hsound.member s hs).1.not_blank), h.id_mem_symbolsNamed ?_⟩
  have hwalk : (g.projects.flatMap fun p => p.declarations.flatMap Symbol.walk) =
      (typeSymbolsOf modules).flatMap Symbol.walk := by
    rw [← hg, List.flatMap_assoc]
  rw [typesNamed, hwalk]
  refine mem_firstOfEach_of_unique (List.mem_filter.mpr ⟨?_, decide_eq_true (h.names hsound.kind)⟩)
    fun t ht hid => ?_
  · exact (mem_walk_typeSymbolsOf hparsed hsound.kind).mpr ⟨m, hm, x, hx, d, hmem, rfl⟩
  · obtain ⟨ht, hnamed⟩ := List.mem_filter.mp ht
    obtain ⟨m', hm', x', hx', d', hd', rfl⟩ :=
      (mem_walk_typeSymbolsOf hparsed (of_decide_eq_true hnamed).1).mp ht
    rw [eq_of_id_eq hproject hnames hparsed hm hm' hd hx' hd' hid]

end

end Concordance
