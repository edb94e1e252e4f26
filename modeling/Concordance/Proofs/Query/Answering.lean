import Concordance.Proofs.Metered
import Concordance.Proofs.Query.Pool
import Concordance.Proofs.Query.Reference
import Mathlib.Data.List.Induction

/-!
# Queries are answered by the reference

Types are looked up through an index of lowered names, the namespace is looked at before repeats are
dropped, repeats are dropped twice by id and once more by place, and rows are collected in reverse.
What comes out is the answer that `reference` describes.

## Main definitions

* `Finds`: what a search finds for each id

## Main results

* `Project.findDeclarations_eq_filter`: the index of a project finds what a walk through its
  declarations does
* `typesIn_eq`: the types among them
* `resolveTypes_ends`, `resolveMembers_eq`, `aggregate_ends`: the stages of a query
* `answer_ends_reference`: a query that nothing calls off is answered by the reference
-/

namespace Concordance

/-! ### The index of names -/

theorem NameIndex.find_ofSymbols (ss : List Symbol) (key : String) :
    (NameIndex.ofSymbols ss).find key =
      ss.filter fun s => s.role.isNone && Text.lower s.name = key := by
  rw [ofSymbols]
  induction ss using List.reverseRecOn with
  | nil => rfl
  | append_singleton ss s ih =>
    rw [List.foldl_concat, List.filter_append, ← ih]
    cases hrole : s.role with
    | some role => simp [hrole]
    | none =>
      rw [if_neg (by simp), NameIndex.find_add]
      by_cases hkey : Text.lower s.name = key <;> simp [hrole, hkey]

/-- The index of a project finds what a walk through its declarations meets, in that order and as
often: the symbols that are no accessors and have the name, in lower case or as it stands. -/
theorem Project.findDeclarations_eq_filter (p : Project) (name : String) (ignoreCase : Bool) :
    p.findDeclarations name ignoreCase =
      (p.declarations.flatMap Symbol.walk).filter fun s =>
        s.role = none ∧
          if ignoreCase then Text.lower s.name = Text.lower name else s.name = name := by
  rw [findDeclarations, index, NameIndex.find_ofSymbols, Symbol.walkAll_eq_flatMap]
  cases ignoreCase with
  | true =>
    refine List.filter_congr fun s _ => ?_
    cases hrole : s.role <;> simp
  | false =>
    rw [if_neg (by decide), List.filter_filter]
    -- symbols of one name have one name in lower case too, so nothing is lost by looking there
    refine List.filter_congr fun s _ => ?_
    by_cases hname : s.name = name <;> cases hrole : s.role <;> simp [hname]

-- in lower case this letter is two characters long, and the second is no letter
example : (Text.lower "İ").length = 2 := by decide

/-- A type is the accessor of nothing. -/
theorem Symbol.role_of_kind_eq {s : Symbol} (h : s.kind = .type) : s.role = none := by
  cases s <;> first | rfl | cases h

theorem Symbol.exists_of_kind_eq {s : Symbol} (h : s.kind = .type) :
    ∃ label, s = .type label s.members := by
  cases s with
  | type label members => exact ⟨label, rfl⟩
  | _ => cases h

namespace Query

open Metered

/-- The index of a project finds the types that a walk through its declarations meets. -/
theorem typesIn_eq (p : Project) (typeName : String) :
    typesIn p typeName = (p.declarations.flatMap Symbol.walk).filter fun s =>
      s.kind = .type ∧ Text.lower s.name = Text.lower typeName := by
  rw [typesIn, Project.findDeclarations, if_pos rfl, Project.index, NameIndex.find_ofSymbols,
    Symbol.walkAll_eq_flatMap, List.filter_filter]
  refine List.filter_congr fun s _ => ?_
  by_cases hkind : s.kind = .type
  · simp [hkind, Symbol.role_of_kind_eq hkind]
  · simp [hkind]

/-! ### Symbols -/

theorem distinctFrom_eq (seen : List String) (ss : List Symbol) :
    Symbol.distinctFrom seen ss = freshOf Symbol.id seen ss := by
  induction ss generalizing seen with
  | nil => rfl
  | cons s rest ih =>
    by_cases hs : s.id ∈ seen
    · rw [Symbol.distinctFrom, if_pos hs, freshOf_cons_of_mem hs, ih]
    · rw [Symbol.distinctFrom, if_neg hs, freshOf_cons_of_not_mem hs, ih]

theorem distinct_eq (ss : List Symbol) : Symbol.distinct ss = firstOfEach Symbol.id ss := by
  rw [Symbol.distinct, distinctFrom_eq, freshOf_nil]

variable {σ : Type} {g : Graph} {f : Filter} {kind : Option MemberKind}

theorem typesOfProjects_ends (typeName : String) (projects : List Project) :
    (typesOfProjects typeName projects : Metered σ (List Symbol)).Ends
      (.ok (projects.flatMap fun p => typesIn p typeName)) := by
  induction projects with
  | nil => exact ends_pure []
  | cons p rest ih => exact ends_checkpoint.bind (ih.bind (ends_pure _))

theorem typesNamed_eq (g : Graph) (f : Filter) :
    typesNamed g f = firstOfEach Symbol.id
      ((g.projects.flatMap fun p => typesIn p f.typeName).filter fun s =>
        ∀ home ∈ f.home, home ≠ "" → s.home = home) := by
  rw [typesNamed, List.filter_flatMap, List.filter_flatMap]
  congr 1
  refine List.flatMap_congr fun p _ => ?_
  rw [typesIn_eq, List.filter_filter]
  refine List.filter_congr fun s _ => ?_
  rw [← Bool.decide_and, decide_eq_decide]
  exact and_rotate.symm

/-- The types that are looked up are those that the query names. -/
theorem resolveTypes_ends (h : Text.isBlankText f.typeName = false) :
    (resolveTypes g f.typeName f.home : Metered σ (List Symbol)).Ends (.ok (typesNamed g f)) := by
  rw [resolveTypes, if_neg (by simp [h])]
  refine ends_checkpoint.bind ((typesOfProjects_ends f.typeName g.projects).bind ?_)
  rw [typesNamed_eq]
  cases hhome : f.home with
  | none => simpa [distinct_eq] using ends_pure _
  | some home =>
    dsimp only
    by_cases hempty : home = ""
    · rw [if_pos hempty, distinct_eq]
      simpa [hempty] using ends_pure _
    · rw [if_neg hempty, distinct_eq]
      simpa [hempty] using ends_pure _

theorem parse_name (selection : AccessorSelection) :
    AccessorSelection.parse (some selection.name) = .ok selection := by
  cases selection <;> decide +kernel

theorem accessors_eq (f : Filter) {member : Symbol} (h : member.kind = .property) :
    member.accessors (some f.accessors) = .ok (f.countsAs .property member) := by
  cases member with
  | property => rfl
  | _ => cases h

theorem mapM_ok {α β : Type} {work : α → Except Failure β} {f : α → β} {l : List α}
    (h : ∀ a ∈ l, work a = .ok (f a)) : l.mapM work = .ok (l.map f) := by
  induction l with
  | nil => rfl
  | cons a l ih =>
    rw [List.mapM_cons, h a List.mem_cons_self, ih fun b hb => h b (List.mem_cons_of_mem _ hb)]
    rfl

/-- What a type contributes are its members that the query names. -/
theorem membersOf_eq {k : MemberKind} {name : String} (hname : f.memberName = some name)
    {selection : AccessorSelection} (hselection : k = .property → selection = f.accessors)
    {type : Symbol} (htype : type.kind = .type) :
    membersOf k name selection type = .ok (f.membersOf k type) := by
  obtain ⟨label, htype⟩ := Symbol.exists_of_kind_eq htype
  have hmembers : type.membersNamed name (some k.toSymbolKind) =
      .ok (type.members.filter fun m => m.kind = k.toSymbolKind ∧ some m.name = f.memberName) := by
    rw [htype, hname]
    simp [Symbol.membersNamed, Symbol.members]
  rw [membersOf, hmembers, Filter.membersOf]
  cases k with
  | property =>
    have haccessors : ∀ m ∈ type.members.filter fun m =>
        m.kind = MemberKind.property.toSymbolKind ∧ some m.name = f.memberName,
        m.accessors (some selection) = .ok (f.countsAs .property m) := by
      intro m hm
      rw [hselection rfl]
      exact accessors_eq f (of_decide_eq_true (List.mem_filter.mp hm).2).1
    show (List.mapM (fun m : Symbol => m.accessors (some selection)) _ >>=
      fun found => pure found.flatten : Except Failure _) = _
    rw [mapM_ok haccessors]
    rfl
  | method => exact congrArg Except.ok (List.flatMap_singleton' _).symm
  | field => exact congrArg Except.ok (List.flatMap_singleton' _).symm

/-- The members that are chosen are those that the query names. -/
theorem resolveMembers_eq {k : MemberKind} {name : String} (hname : f.memberName = some name)
    (hblank : Text.isBlankText name = false) {types : List Symbol}
    (htypes : ∀ t ∈ types, t.kind = .type) :
    resolveMembers types k f.memberName (some f.accessors.name) =
      .ok (firstOfEach Symbol.id (types.flatMap (f.membersOf k))) := by
  have hfound : ∀ selection, (k = .property → selection = f.accessors) →
      (types.mapM (membersOf k name selection) >>= fun found =>
        pure (Symbol.distinct found.flatten) : Except Failure _) =
          .ok (firstOfEach Symbol.id (types.flatMap (f.membersOf k))) := by
    intro selection hselection
    rw [mapM_ok fun t ht => membersOf_eq hname hselection (htypes t ht), ← distinct_eq]
    rfl
  rw [resolveMembers.eq_def, hname]
  dsimp only
  rw [if_neg (by simp [hblank])]
  by_cases hk : k = .property
  · rw [if_pos hk, parse_name]
    exact hfound f.accessors fun _ => rfl
  · rw [if_neg hk]
    exact hfound .both fun h => absurd h hk

/-- The symbols that are looked up are those that the query names. -/
theorem meant_ends (h : f.Valid kind) :
    (meant g f kind : Metered σ (List Symbol)).Ends (.ok (symbolsNamed g f kind)) := by
  refine (resolveTypes_ends h.typeName).bind ?_
  have htypes : ∀ t ∈ typesNamed g f, t.kind = .type := fun t ht =>
    (of_decide_eq_true (List.mem_filter.mp ((firstOfEach_sublist _ _).subset ht)).2).1
  cases kind with
  | none => exact ends_pure _
  | some k =>
    obtain ⟨name, hname, hblank⟩ := h.memberName rfl
    dsimp only
    by_cases hempty : (typesNamed g f).isEmpty
    · rw [if_pos hempty]
      have hnil : symbolsNamed g f (some k) = [] := by
        rw [symbolsNamed, List.isEmpty_iff.mp hempty]
        rfl
      rw [hnil]
      exact ends_pure []
    · rw [if_neg hempty, resolveMembers_eq hname hblank htypes]
      exact ends_pure _

/-- Without a name, or with a blank one, no members are chosen. -/
theorem resolveMembers_of_not_named {f : Filter}
    (h : ∀ name, f.memberName = some name → Text.isBlankText name = true) (types : List Symbol)
    (k : MemberKind) (accessor : Option String) :
    ∃ failure, resolveMembers types k f.memberName accessor = .error failure := by
  rw [resolveMembers.eq_def]
  cases hname : f.memberName with
  | none => exact ⟨_, rfl⟩
  | some name =>
    dsimp only
    rw [if_pos (h name hname)]
    exact ⟨_, rfl⟩

/-- The symbols that are looked up, if there is no failure, are those that the query names. -/
theorem symbols_of_meant {g : Graph} {f : Filter} {kind : Option MemberKind} {m : Meter} {e : σ}
    (hm : m.limit = none) {symbols : List Symbol}
    (h : ((meant g f kind : Metered σ _).runFrom m e).1 = .ok symbols) :
    symbols = symbolsNamed g f kind := by
  have hfails : ∀ failure, ¬ (meant g f kind : Metered σ _).Ends (.error failure) := by
    intro failure hends
    rw [(hends m e hm).1] at h
    cases h
  by_cases hvalid : f.Valid kind
  · rw [(meant_ends hvalid m e hm).1] at h
    exact (Except.ok.inj h).symm
  · have htype : Text.isBlankText f.typeName = false := by
      by_contra hblank
      have hrefused : (resolveTypes g f.typeName f.home : Metered σ _).Ends
          (.error (.argument "type_name is required" "type_name" none)) := by
        rw [resolveTypes, if_pos (by simpa using hblank)]
        exact (ends_throw _).bind_error
      exact hfails _ hrefused.bind_error
    cases kind with
    | none => exact absurd ⟨htype, nofun⟩ hvalid
    | some k =>
      obtain ⟨failure, hmembers⟩ := resolveMembers_of_not_named (f := f)
        (fun name hname => by
          by_contra hblank
          exact hvalid ⟨htype, fun _ => ⟨name, hname, by simpa using hblank⟩⟩)
        (typesNamed g f) k (some f.accessors.name)
      by_cases hempty : (typesNamed g f).isEmpty
      · have hends : (meant g f (some k) : Metered σ _).Ends (.ok []) := by
          refine (resolveTypes_ends htype).bind ?_
          dsimp only
          rw [if_pos hempty]
          exact ends_pure []
        rw [(hends m e hm).1] at h
        rw [← Except.ok.inj h, symbolsNamed, List.isEmpty_iff.mp hempty]
        rfl
      · refine absurd ((resolveTypes_ends htype).bind ?_) (hfails failure)
        dsimp only
        rw [if_neg hempty, hmembers]
        exact ends_throw failure

/-! ### Rows -/

/-- What a search finds depends on the id of a symbol only. -/
def Finds (search : Search σ) (g : Graph) (find : String → List Location) : Prop :=
  ∀ s, (search g s).Ends (.ok (find s.id))

/-- The hits of one symbol. -/
abbrev hitsAt (s : Symbol) (locations : List Location) : List Hit :=
  (locations.filter fun l => l.inSource).map fun l => (s, l)

/-- Collecting the rows of a symbol adds those of the hits that have not been met. -/
theorem collectRows_perm (s : Symbol) (locations : List Location) (seen : List RowKey)
    (rows : List Row) :
    (∀ k, k ∈ (collectRows s locations (seen, rows)).1 ↔
      k ∈ seen ∨ k ∈ (hitsAt s locations).map Hit.key) ∧
    (collectRows s locations (seen, rows)).2.Perm
      ((freshOf Hit.key seen (hitsAt s locations)).map Hit.row ++ rows) := by
  induction locations generalizing seen rows with
  | nil => exact ⟨fun k => (or_iff_left List.not_mem_nil).symm, .refl _⟩
  | cons l rest ih =>
    cases hsource : l.inSource with
    | false =>
      rw [hitsAt, List.filter_cons_of_neg (by simp [hsource]), collectRows,
        if_neg (by simp [hsource])]
      exact ih seen rows
    | true =>
      rw [hitsAt, List.filter_cons_of_pos (by simp [hsource]), List.map_cons, List.map_cons]
      have hkey : (s.id, l.path, l.line) = Hit.key (s, l) := rfl
      rw [collectRows, hkey]
      by_cases hseen : Hit.key (s, l) ∈ seen
      · rw [if_neg (by simp [hseen]), freshOf_cons_of_mem hseen]
        refine ⟨fun k => ((ih seen rows).1 k).trans ?_, (ih seen rows).2⟩
        rw [List.mem_cons]
        refine ⟨Or.imp_right .inr, ?_⟩
        rintro (hk | rfl | hk)
        · exact .inl hk
        · exact .inl hseen
        · exact .inr hk
      · rw [if_pos (by simp [hsource, hseen]), freshOf_cons_of_not_mem hseen]
        obtain ⟨hmem, hperm⟩ := ih (Hit.key (s, l) :: seen) (Hit.row (s, l) :: rows)
        refine ⟨fun k => (hmem k).trans ?_, hperm.trans List.perm_middle⟩
        rw [List.mem_cons, List.mem_cons, or_left_comm, ← or_assoc]

/-- Collecting the rows of symbols one after the other adds those of all hits that have not been
met, in whatever order. -/
theorem foldl_collectRows_perm {find : String → List Location}
    {answers : List (Symbol × List Location)} (hfind : ∀ a ∈ answers, find a.1.id = a.2)
    (seen : List RowKey) (rows : List Row) :
    (answers.foldl (fun found a => collectRows a.1 a.2 found) (seen, rows)).2.Perm
      ((freshOf Hit.key seen (hits find (answers.map Prod.fst))).map Hit.row ++ rows) := by
  induction answers generalizing seen rows with
  | nil => exact .refl _
  | cons a answers ih =>
    obtain ⟨hmem, hperm⟩ := collectRows_perm a.1 a.2 seen rows
    refine (ih (fun b hb => hfind b (List.mem_cons_of_mem a hb)) _ _).trans ?_
    have hhits : hits find ((a :: answers).map Prod.fst) =
        hitsAt a.1 a.2 ++ hits find (answers.map Prod.fst) := by
      rw [← hfind a List.mem_cons_self]
      rfl
    rw [hhits, freshOf_append _ _ hmem, List.map_append]
    refine (List.Perm.append_left _ hperm).trans ?_
    rw [← List.append_assoc]
    exact List.perm_append_comm.append_right rows

/-- Searching symbols collects the rows of all of them. -/
theorem searchAll_ends {search : Search σ} {find : String → List Location}
    (hfind : Finds search g find) (symbols : List Symbol) (found : List RowKey × List Row) :
    (searchAll search g symbols found).Ends
      (.ok ((symbols.map fun s => (s, find s.id)).foldl
        (fun found a => collectRows a.1 a.2 found) found).2) := by
  induction symbols generalizing found with
  | nil => exact ends_pure _
  | cons s rest ih => exact ends_checkpoint.bind ((hfind s).bind (ih _))

/-- Aggregating gives a row for each hit, in ascending order. -/
theorem aggregate_ends {search : Search σ} {find : String → List Location}
    (hfind : Finds search g find) {symbols : List Symbol} (hids : (symbols.map Symbol.id).Nodup) :
    (aggregate search g symbols).Ends (.ok
      (((firstOfEach Hit.key (hits find symbols)).map Hit.row).insertionSort
        fun a b => a.order ≤ b.order)) := by
  have hanswers : ∀ a ∈ symbols.map fun s => (s, find s.id), find a.1.id = a.2 := by simp
  have hperm := foldl_collectRows_perm hanswers [] []
  have hsymbols : (symbols.map fun s => (s, find s.id)).map Prod.fst = symbols := by
    simp [Function.comp_def]
  rw [freshOf_nil, List.append_nil, hsymbols] at hperm
  rw [aggregate, distinct_eq, firstOfEach_eq_self hids]
  rw [← Row.insertionSort_eq_of_perm hperm, ← Row.sort_eq]
  exact (searchAll_ends hfind symbols ([], [])).bind (ends_pure _)

/-! ### Queries -/

/-- **A query is answered by the reference.** Asked of any graph, and by any search that goes by ids
only, a query that nothing calls off has the answer that `reference` describes. The answer stays the
same if the search comes with the same places in another order or more than once; and what it goes
on from is what any number of workers gather, in whatever order they end. -/
theorem answer_ends_reference {search : Search σ} {find : String → List Location}
    (hfind : Finds search g find) (hvalid : f.Valid kind) :
    (answer search g f kind).Ends (.ok (reference find g f kind)) ∧
    (∀ (search' : Search σ) (find' : String → List Location), Finds search' g find' →
      (∀ id l, l.inSource → (l ∈ find id ↔ l ∈ find' id)) →
        (answer search' g f kind).Ends (.ok (reference find g f kind))) ∧
    ∀ workers : Lookup, (∃ found, workers.Gathers g f.typeName found) ∧
      ∀ found, workers.Gathers g f.typeName found →
        (typesOfProjects f.typeName g.projects : Metered σ _).Ends (.ok found.flatten) := by
  have hanswer : ∀ (search : Search σ) (find : String → List Location), Finds search g find →
      (answer search g f kind).Ends (.ok (reference find g f kind)) := by
    intro search find hfind
    refine (meant_ends hvalid).bind ?_
    by_cases hempty : (symbolsNamed g f kind).isEmpty
    · rw [if_pos hempty, reference, List.isEmpty_iff.mp hempty]
      exact ends_pure []
    · rw [if_neg hempty]
      exact aggregate_ends hfind (nodup_symbolsNamed g f kind)
  refine ⟨hanswer search find hfind, fun search' find' hfind' hsame => ?_, fun workers => ?_⟩
  · rw [reference_congr hsame]
    exact hanswer search' find' hfind'
  · refine ⟨⟨_, (workers.gathers_iff g f.typeName _).mpr rfl⟩, fun found hfound => ?_⟩
    rw [(workers.gathers_iff g f.typeName found).mp hfound]
    exact typesOfProjects_ends f.typeName g.projects

/-- The locations of an id in the references of a graph. -/
def located (g : Graph) (id : String) : List Location :=
  g.references.flatMap fun ix => (ix.find? fun e => e.1 = id).elim [] Prod.snd

/-- The search in the references of a graph goes by ids only. -/
theorem finds_indexed (g : Graph) : Finds (indexed : Search σ) g (located g) := by
  intro s
  rw [located]
  show (lookUp s.id g.references : Metered σ _).Ends _
  induction g.references with
  | nil => exact ends_pure []
  | cons ix rest ih => exact ends_checkpoint.bind (ih.bind (ends_pure _))

/-- Two projects with types of one name up to case, one of them inside another type; both have a
property of the same name. -/
def workshop : Graph :=
  let method (id : String) : Symbol := .method ⟨id, "size", "", none, id⟩ (some "get")
  let node (id name : String) (getter setter : Option Symbol) : Symbol :=
    .type ⟨id, name, "", none, id⟩
      [.property ⟨id ++ ".size", "size", "", some name, id ++ ".size"⟩ getter setter]
  { projects :=
      [{ name := .string "p"
         declarations := [.type ⟨"p:Outer", "Outer", "", none, "p:Outer"⟩
          [node "p:Node" "Node" (some (method "p:size.get")) (some (method "p:size.set"))]] },
        { name := .string "q"
          declarations := [node "q:node" "node" (some (method "q:size.get")) none] }]
    references :=
      [[("p:size.set", [⟨"/b", 7, true⟩, ⟨"/a", 3, true⟩, ⟨"/b", 7, true⟩, ⟨"/c", 1, false⟩]),
          ("p:size.get", [⟨"/b", 7, true⟩])],
        [("q:size.get", [⟨"/a", 1, true⟩]), ("p:size.set", [⟨"/a", 3, true⟩])]] }

/-- The property is found in both types, and each place where one of its accessors is referred to
has one row. -/
theorem answer_ends_reference_workshop :
    let f : Filter := { typeName := "NODE", memberName := some "size" }
    let rows : List Row := [⟨"p:size.get", "/b", 7⟩, ⟨"p:size.set", "/a", 3⟩,
      ⟨"p:size.set", "/b", 7⟩, ⟨"q:size.get", "/a", 1⟩]
    f.Valid (some .property) ∧
      (answer indexed workshop f (some .property) : Metered Unit (List Row)).Ends (.ok rows) := by
  intro f rows
  have hcheck : Filter.check (some "NODE") none (some "size") none = .ok f := by decide +kernel
  have hvalid : f.Valid (some .property) := Filter.valid_of_check hcheck fun _ => rfl
  have hrows : reference (located workshop) workshop f (some .property) = rows := by
    decide +kernel
  refine ⟨hvalid, ?_⟩
  rw [← hrows]
  exact (answer_ends_reference (finds_indexed workshop) hvalid).1

end Query

end Concordance
