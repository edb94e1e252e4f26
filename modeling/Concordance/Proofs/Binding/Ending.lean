import Concordance.Proofs.Binding.Execution
import Concordance.Proofs.Binding.History

/-!
# The binding at the end of a module

The binding that is worked out for a name of a module, from the last of its sources back, is the
one that the name has when the statements of the module have been run in their order, as long as
no import of all names binds the name anew.

Imports of all names are looked at only where a name has no source of its own, and then from the
first one on. A run takes them in their place, so that one that stands behind a class statement or
behind another import of all names has the last word there. `Environment.export_differs` shows that
the two come apart there.

## Main definitions

* `lookBack`: the class that a name has as seen from the end of some moves
* `Undisturbed`: imports of all names leave a name that is bound as it is
* `drawn`, `Steady`: the names that a binding is taken from, and names for which all of these are
  undisturbed

## Main results

* `runMoves_eq_lookBack`: looking back from the end of undisturbed moves finds what a run leaves
* `Environment.export_eq_ending`: the binding of a name is the one at the end of its module
-/

namespace Concordance.Binding

open Syntax

/-! ### Outlines of moves -/

/-- What a move binds a name to by itself. -/
def Move.source? (name : String) : Move → Option Source
  | declare n k => if n = name then some (.classStatement k) else none
  | take n target source => if n = name then some (.nameImport target source) else none
  | takeAll _ => none

namespace Outline

/-- Enter what a move binds. -/
def addMove (o : Outline) : Move → Outline
  | .declare name k => o.add name (.classStatement k)
  | .take name target source => o.add name (.nameImport target source)
  | .takeAll target => { o with wildcards := o.wildcards ++ [target] }

theorem wildcards_foldl_addMove (moves : List Move) :
    (moves.foldl addMove {}).wildcards = moves.filterMap Move.wildcard? := by
  induction moves using List.reverseRecOn with
  | nil => rfl
  | append_singleton moves move ih =>
    rw [List.foldl_concat, List.filterMap_append, ← ih]
    cases move <;> simp [addMove, add, Move.wildcard?]

/-- A name has the sources that moves bind it to, if there are any. -/
theorem find?_foldl_addMove (moves : List Move) (name : String) :
    (moves.foldl addMove {}).names.find? name =
      if moves.filterMap (Move.source? name) = [] then none
      else some (moves.filterMap (Move.source? name)) := by
  induction moves using List.reverseRecOn with
  | nil => rfl
  | append_singleton moves move ih =>
    rw [List.foldl_concat, List.filterMap_append]
    have hadd : ∀ n s, ((moves.foldl addMove {}).add n s).names.find? name =
        if n = name then some (moves.filterMap (Move.source? name) ++ [s])
        else (moves.foldl addMove {}).names.find? name := by
      intro n s
      rw [add, Table.find?_alter]
      by_cases hn : n = name
      · subst hn
        rw [if_pos rfl, if_pos rfl, ih]
        split <;> simp_all
      · rw [if_neg hn, if_neg hn]
    cases move with
    | takeAll target =>
      rw [show [Move.takeAll target].filterMap (Move.source? name) = [] from rfl, List.append_nil]
      exact ih
    | declare n k =>
      rw [addMove, hadd]
      by_cases hn : n = name
      · simp [Move.source?, hn]
      · simpa [Move.source?, hn] using ih
    | take n target source =>
      rw [addMove, hadd]
      by_cases hn : n = name
      · simp [Move.source?, hn]
      · simpa [Move.source?, hn] using ih

theorem addStatement_eq {modules : List ModuleDecls} {m : SourceModule} {stmt : Node}
    (h : IsPlain modules m stmt) (index : Nat) (o : Outline) :
    addStatement m index o stmt = (movesOfStatement m index stmt).foldl addMove o := by
  cases stmt with
  | classDef => rfl
  | importFrom place source names level =>
    obtain ⟨target, hmem, -⟩ := h
    rw [addStatement, movesOfStatement, Option.mem_def.mp hmem]
    simp only [Option.toList_some, List.flatMap_singleton, List.foldl_map]
    congr 1
    funext o a
    by_cases ha : a.name = "*"
    · simp [addImported, addMove, ha]
    · simp [addImported, addMove, ha]
  | _ => cases h

/-- The outline of a module that can be run holds its moves. -/
theorem ofModule_eq {modules : List ModuleDecls} (h : Importing modules) {d : ModuleDecls}
    (hd : d ∈ modules) (index : Nat) :
    ofModule d.source index = (movesOf d index).foldl addMove {} := by
  have hstatements : ∀ body : List Node, (∀ stmt ∈ body, IsPlain modules d.source stmt) →
      ∀ o, (moduleStatements body).foldl (addStatement d.source index) o =
        (body.flatMap (movesOfStatement d.source index)).foldl addMove o := by
    intro body hbody
    induction body with
    | nil => intro o; rfl
    | cons stmt rest ih =>
      intro o
      have hplain := hbody stmt List.mem_cons_self
      have hinner : innerStatements stmt = [] := by
        cases stmt <;> first | rfl | cases hplain
      rw [moduleStatements, hinner, List.nil_append, List.foldl_cons, List.flatMap_cons,
        List.foldl_append, addStatement_eq hplain]
      exact ih (fun s hs => hbody s (List.mem_cons_of_mem _ hs)) _
  exact hstatements d.source.body (h.plain d hd) {}

end Outline

/-! ### Looking back -/

/-- The class that a source binds its name to, where other modules have been run. -/
def Source.classIn (others : String → Option Namespace) : Source → Option ClassId
  | .classStatement k => some k
  | .nameImport target source => (others target).bind fun other => other source
  | _ => none

/-- The class that a name has as seen from the end: that of its last source, and without any, if it
is public, that of the first module that has it among those that all names are taken from. -/
def lookBack (others : String → Option Namespace) (moves : List Move) (name : String) :
    Option ClassId :=
  match (moves.filterMap (Move.source? name)).getLast? with
  | some s => s.classIn others
  | none =>
    if isPublic name then
      (moves.filterMap Move.wildcard?).findSome? fun u => (others u).bind fun other => other name
    else none

/-- An import of all names among moves leaves a name that is bound as it is: if it finds the name,
this is not bound yet, or is bound to the same, or is bound by itself later on. -/
def UndisturbedAt (others : String → Option Namespace) (name : String) (moves : List Move)
    (j : Nat) : Prop :=
  ∀ target ∈ (moves[j]?).bind Move.wildcard?,
    ∀ ns ∈ runMoves others (moves.take j), ∀ other ∈ others target,
      isPublic name → other name ≠ none →
        ns name = none ∨ ns name = other name ∨
          ∃ move ∈ moves.drop (j + 1), move.name? = some name

/-- Imports of all names leave a name that is bound as it is. -/
def Undisturbed (others : String → Option Namespace) (name : String) (moves : List Move) : Prop :=
  ∀ j < moves.length, UndisturbedAt others name moves j

instance (others : String → Option Namespace) (name : String) (moves : List Move) :
    DecidablePred (UndisturbedAt others name moves) := fun j =>
  inferInstanceAs <| Decidable <|
    ∀ target ∈ (moves[j]?).bind Move.wildcard?,
      ∀ ns ∈ runMoves others (moves.take j), ∀ other ∈ others target,
        isPublic name → other name ≠ none →
          ns name = none ∨ ns name = other name ∨
            ∃ move ∈ moves.drop (j + 1), move.name? = some name

instance (others : String → Option Namespace) (name : String) (moves : List Move) :
    Decidable (Undisturbed others name moves) :=
  inferInstanceAs (Decidable (∀ j < moves.length, UndisturbedAt others name moves j))

section

variable {others : String → Option Namespace} {ns : Namespace} {moves : List Move} {name : String}

theorem name?_eq_iff_source? {move : Move} :
    move.name? = some name ↔ (move.source? name).isSome := by
  cases move with
  | declare n k => by_cases hn : n = name <;> simp [Move.name?, Move.source?, hn]
  | take n target source => by_cases hn : n = name <;> simp [Move.name?, Move.source?, hn]
  | takeAll target => simp [Move.name?, Move.source?]

/-- What a name is bound to by itself is what it has when the move has been run. -/
theorem Move.run_of_source? {move : Move} {s : Source} {ns' : Namespace}
    (hs : move.source? name = some s) (hrun : move.run others ns = some ns') :
    ns' name = s.classIn others := by
  cases move with
  | declare n k =>
    obtain rfl : n = name := by by_contra hn; simp [Move.source?, hn] at hs
    cases hrun
    obtain rfl : Source.classStatement k = s := by simpa [Move.source?] using hs
    simp [Source.classIn]
  | take n target source =>
    obtain rfl : n = name := by by_contra hn; simp [Move.source?, hn] at hs
    obtain rfl : Source.nameImport target source = s := by simpa [Move.source?] using hs
    obtain ⟨other, hother, hrest⟩ := Option.bind_eq_some_iff.mp hrun
    obtain ⟨k, hk, hrest⟩ := Option.bind_eq_some_iff.mp hrest
    cases hrest
    simp [Source.classIn, hother, hk]
  | takeAll target => cases hs

/-- A move that does not bind a name by itself leaves it, unless it takes all names over. -/
theorem Move.run_of_source?_none {move : Move} {ns' : Namespace}
    (hs : move.source? name = none) (hrun : move.run others ns = some ns') :
    ns' name = match move.wildcard? with
      | none => ns name
      | some target =>
        if isPublic name then ((others target).bind fun other => other name).or (ns name)
        else ns name := by
  cases move with
  | declare n k =>
    cases hrun
    have hn : name ≠ n := by rintro rfl; simp [Move.source?] at hs
    simp [Move.wildcard?, hn]
  | take n target source =>
    obtain ⟨other, hother, hrest⟩ := Option.bind_eq_some_iff.mp hrun
    obtain ⟨k, hk, hrest⟩ := Option.bind_eq_some_iff.mp hrest
    cases hrest
    have hn : name ≠ n := by rintro rfl; simp [Move.source?] at hs
    simp [Move.wildcard?, hn]
  | takeAll target =>
    obtain ⟨other, hother, rfl⟩ := Option.map_eq_some_iff.mp hrun
    simp [Move.wildcard?, hother]

theorem Undisturbed.of_concat {move : Move} (h : Undisturbed others name (moves ++ [move]))
    (hs : move.source? name = none) : Undisturbed others name moves := by
  intro j hj target htarget ns hns other hother hpublic hname
  have hget : (moves ++ [move])[j]? = moves[j]? := List.getElem?_append_left hj
  have htake : (moves ++ [move]).take j = moves.take j := List.take_append_of_le_length hj.le
  have hdrop : (moves ++ [move]).drop (j + 1) = moves.drop (j + 1) ++ [move] :=
    List.drop_append_of_le_length hj
  have hlater := h j (by simp only [List.length_append]; omega) target (by rwa [hget]) ns
    (by rwa [htake]) other hother hpublic hname
  refine hlater.imp_right (Or.imp_right ?_)
  rintro ⟨last, hlast, hbinds⟩
  rw [hdrop] at hlast
  rcases List.mem_append.mp hlast with hlast | hlast
  · exact ⟨last, hlast, hbinds⟩
  · rw [List.mem_singleton.mp hlast, name?_eq_iff_source?, hs] at hbinds
    cases hbinds

/-- The last import of all names finds a name unbound or bound to the same. -/
theorem Undisturbed.last {target : String}
    (h : Undisturbed others name (moves ++ [.takeAll target]))
    (hrun : runMoves others moves = some ns) (hpublic : isPublic name) {k : ClassId}
    (hk : ((others target).bind fun other => other name) = some k) :
    ns name = none ∨ ns name = some k := by
  obtain ⟨other, hother, hname⟩ := Option.bind_eq_some_iff.mp hk
  have hlast := h moves.length (by simp) target (by simp [Move.wildcard?]) ns (by simpa using hrun)
    other hother hpublic (by simp [hname])
  rw [hname] at hlast
  rcases hlast with hlast | hlast | ⟨move, hmem, -⟩
  · exact .inl hlast
  · exact .inr hlast
  · simp at hmem

theorem lookBack_concat_of_none {move : Move} (hs : move.source? name = none)
    (hwild : move.wildcard? = none) :
    lookBack others (moves ++ [move]) name = lookBack others moves name := by
  have hown : (moves ++ [move]).filterMap (Move.source? name) =
      moves.filterMap (Move.source? name) := by simp [hs]
  have hwildcards : (moves ++ [move]).filterMap Move.wildcard? =
      moves.filterMap Move.wildcard? := by simp [hwild]
  rw [lookBack, lookBack, hown, hwildcards]

theorem lookBack_concat_takeAll (others : String → Option Namespace) (moves : List Move)
    (name target : String) :
    lookBack others (moves ++ [.takeAll target]) name =
      if moves.filterMap (Move.source? name) = [] ∧ isPublic name then
        (lookBack others moves name).or ((others target).bind fun other => other name)
      else lookBack others moves name := by
  have hown : (moves ++ [Move.takeAll target]).filterMap (Move.source? name) =
      moves.filterMap (Move.source? name) := by simp [Move.source?]
  have hwildcards : (moves ++ [Move.takeAll target]).filterMap Move.wildcard? =
      moves.filterMap Move.wildcard? ++ [target] := by
    rw [List.filterMap_append]
    rfl
  rw [lookBack, lookBack, hown, hwildcards, List.findSome?_append]
  by_cases hnil : moves.filterMap (Move.source? name) = []
  · by_cases hpublic : isPublic name <;> simp [hnil, hpublic]
  · obtain ⟨s, hs⟩ : ∃ s, (moves.filterMap (Move.source? name)).getLast? = some s :=
      ⟨_, List.getLast?_eq_some_getLast hnil⟩
    simp [hnil, hs]

/-- A name with a source of its own is bound when moves have been run. -/
theorem isSome_of_source? (hrun : runMoves others moves = some ns)
    (h : moves.filterMap (Move.source? name) ≠ []) : (ns name).isSome := by
  obtain ⟨s, hs⟩ := List.exists_mem_of_ne_nil _ h
  obtain ⟨move, hmem, hmove⟩ := List.mem_filterMap.mp hs
  exact isSome_of_runMoves hrun hmem (.inl (name?_eq_iff_source?.mpr (by simp [hmove])))

/-- **Looking back from the end finds what a run leaves**, where imports of all names leave a name
that is bound as it is. -/
theorem runMoves_eq_lookBack (h : Undisturbed others name moves)
    (hrun : runMoves others moves = some ns) : ns name = lookBack others moves name := by
  induction moves using List.reverseRecOn generalizing ns with
  | nil =>
    cases hrun
    simp [lookBack]
  | append_singleton moves move ih =>
    rw [runMoves_concat] at hrun
    obtain ⟨mid, hmid, hmove⟩ := Option.bind_eq_some_iff.mp hrun
    cases hs : move.source? name with
    | some s =>
      rw [Move.run_of_source? hs hmove]
      simp [lookBack, hs]
    | none =>
      have hback := ih (h.of_concat hs) hmid
      rw [Move.run_of_source?_none hs hmove]
      cases move with
      | declare n k => rw [lookBack_concat_of_none hs rfl, ← hback]; rfl
      | take n target source => rw [lookBack_concat_of_none hs rfl, ← hback]; rfl
      | takeAll target =>
        rw [lookBack_concat_takeAll, ← hback]
        show (if isPublic name then _ else _) = _
        by_cases hpublic : isPublic name
        case neg => simp [hpublic]
        cases hk : (others target).bind fun other => other name with
        | none => simp
        | some k =>
          rcases h.last hmid hpublic hk with hnone | hsome
          · have hnil : moves.filterMap (Move.source? name) = [] := by
              by_contra hne
              have hbound := isSome_of_source? hmid hne
              rw [hnone] at hbound
              cases hbound
            simp [hnil, hpublic, hnone]
          · simp [hpublic, hsome]

end

/-! ### Modules by name -/

section

variable {modules : List ModuleDecls} {i : Nat} {d : ModuleDecls}

/-- There is one module of a name. -/
theorem Importing.eq_of_name (h : Importing modules) (hi : modules[i]? = some d) {j : Nat}
    {d' : ModuleDecls} (hj : modules[j]? = some d') (hname : d'.source.name = d.source.name) :
    j = i := by
  have hlt : j < (modules.map fun d => d.source.name).length := by
    simpa using (List.getElem?_eq_some_iff.mp hj).1
  refine (List.getElem?_inj hlt h.distinct).mp ?_
  simp [hi, hj, hname]

theorem Importing.movesIn_eq (h : Importing modules) (hi : modules[i]? = some d) :
    movesIn modules d.source.name = movesOf d i := by
  have hmem : (d, i) ∈ modules.zipIdx := List.mem_zipIdx_iff_getElem?.mpr hi
  cases hfind : modules.zipIdx.find? fun p => p.1.source.name = d.source.name with
  | none => simpa using List.find?_eq_none.mp hfind (d, i) hmem
  | some p =>
    have hname : p.1.source.name = d.source.name := by simpa using List.find?_some hfind
    have hp : modules[p.2]? = some p.1 :=
      List.mem_zipIdx_iff_getElem?.mp (List.mem_of_find?_eq_some hfind)
    have hindex : p.2 = i := h.eq_of_name hi hp hname
    rw [hindex, hi] at hp
    rw [movesIn, hfind, Option.map_some, Option.getD_some, ← Option.some.inj hp, hindex]

theorem Importing.findModule?_eq (h : Importing modules) (hi : modules[i]? = some d)
    {c : Codebase} (hc : c.modules = modules) (project : Option String) :
    c.findModule? d.source.name project = some i := by
  have hfound : ∀ (p : ModuleDecls → Bool), (∀ d', p d' → d'.source.name = d.source.name) →
      ∀ j, modules.findIdx? p = some j → j = i := by
    intro p hp j hj
    obtain ⟨hlt, hpj, -⟩ := List.findIdx?_eq_some_iff_getElem.mp hj
    exact h.eq_of_name hi (List.getElem?_eq_getElem hlt) (hp _ hpj)
  rw [Codebase.findModule?, hc]
  cases hown : modules.findIdx? fun d' =>
      decide (d'.source.name = d.source.name) && decide (some d'.source.project = project) with
  | some j => rw [hfound _ (fun d' hd' => by simp_all) j hown]; rfl
  | none =>
    cases hany : modules.findIdx? fun d' => decide (d'.source.name = d.source.name) with
    | some j => rw [hfound _ (fun d' hd' => by simpa using hd') j hany]; rfl
    | none =>
      have hno := List.findIdx?_eq_none_iff.mp hany d (List.mem_of_getElem? hi)
      simp at hno

end

/-! ### Names that a binding is taken from -/

/-- The names of other modules that the binding of a name is taken from: that of its last source, or
without any the same name in all modules that all names are taken from. -/
def drawn (moves : List Move) (name : String) : List (String × String) :=
  match (moves.filterMap (Move.source? name)).getLast? with
  | some (.nameImport target source) => [(target, source)]
  | some _ => []
  | none => if isPublic name then (moves.filterMap Move.wildcard?).map fun u => (u, name) else []

/-- Imports of all names leave a name as it is, and so they do with all that it is taken from. -/
def Steady (modules : List ModuleDecls) (t name : String) : Prop :=
  ∀ p, Relation.ReflTransGen (fun p q => q ∈ drawn (movesIn modules p.1) p.2) (t, name) p →
    Undisturbed (ending modules) p.2 (movesIn modules p.1)

theorem exists_move_of_mem_drawn {moves : List Move} {name : String} {p : String × String}
    (hp : p ∈ drawn moves name) : ∃ move ∈ moves, move.target? = some p.1 := by
  rw [drawn] at hp
  split at hp
  · rename_i target source hlast
    obtain ⟨move, hmove, hsource⟩ := List.mem_filterMap.mp (List.mem_of_getLast? hlast)
    refine ⟨move, hmove, ?_⟩
    rw [List.mem_singleton.mp hp]
    cases move <;> simp_all [Move.source?, Move.target?]
  · cases hp
  · split at hp
    · obtain ⟨u, hu, rfl⟩ := List.mem_map.mp hp
      obtain ⟨move, hmove, hwild⟩ := List.mem_filterMap.mp hu
      exact ⟨move, hmove, by cases move <;> simp_all [Move.wildcard?, Move.target?]⟩
    · cases hp

section

variable {modules : List ModuleDecls} {t name : String}

theorem Steady.undisturbed (h : Steady modules t name) :
    Undisturbed (ending modules) name (movesIn modules t) :=
  h (t, name) .refl

theorem Steady.of_mem_drawn (h : Steady modules t name) {q : String × String}
    (hq : q ∈ drawn (movesIn modules t) name) : Steady modules q.1 q.2 :=
  fun p hp => h p (.head hq hp)

/-- Names are steady if they are among some that are undisturbed and are taken from each other. -/
theorem Steady.of_closed (names : List (String × String))
    (hclosed : ∀ p ∈ names, drawn (movesIn modules p.1) p.2 ⊆ names)
    (hnames : ∀ p ∈ names, Undisturbed (ending modules) p.2 (movesIn modules p.1))
    (hmem : (t, name) ∈ names) : Steady modules t name := by
  intro p hp
  refine hnames p ?_
  induction hp with
  | refl => exact hmem
  | tail _ hq ih => exact hclosed _ ih hq

end

/-! ### What is worked out -/

/-- The binding of a name that is a class in the end, or nothing. -/
def atEnd (k : Option ClassId) : Option Denotation := k.map fun k => .classObject k false

section

variable {c : Codebase} {q : Questions} {m : Nat} {name : String} {s : Cache}
  {others : String → Option Namespace} {moves : List Move}

/-- The last source decides if it says anything. -/
theorem run_resolveExport_of_last {sources : List Source} {last : Source} {b : Denotation}
    (hfind : (c.outline m).names.find? name = some sources)
    (hlast : sources.getLast? = some last)
    (hrun : (resolveSource c q m last).run s = (.ok (some b), s)) (hb : b ≠ .other) :
    (resolveExport c q m name).run s = (.ok (some b), s) := by
  obtain ⟨before, rfl⟩ := List.getLast?_eq_some_iff.mp hlast
  rw [resolveExport, hfind]
  show (some <$> firstInformative c q m (before ++ [last]).reverse).run s = _
  rw [List.reverse_append, List.reverse_singleton, List.singleton_append, map_eq_pure_bind,
    run_bind, firstInformative, run_bind, hrun]
  cases b <;> first | rfl | exact absurd rfl hb

/-- Of modules that all names are taken from, the first that has a name decides. -/
theorem run_firstExport {f : String → Option ClassId} {targets : List String}
    (hq : ∀ u ∈ targets,
      (q.exportedFrom (c.findModule? u (c.project? m)) name).run s = (.ok (atEnd (f u)), s)) :
    (firstExport c q m name targets).run s = (.ok (atEnd (targets.findSome? f)), s) := by
  induction targets with
  | nil => rfl
  | cons u rest ih =>
    rw [firstExport, run_bind, hq u List.mem_cons_self, List.findSome?_cons]
    cases hu : f u with
    | some b => rfl
    | none => exact ih fun v hv => hq v (List.mem_cons_of_mem _ hv)

/-- A source that comes from a move binds its name to a class if the module it takes it from
does. -/
theorem run_resolveSource_of_move {move : Move} {last : Source} {k : ClassId}
    (hsource : move.source? name = some last) (hk : last.classIn others = some k)
    (hq : ∀ target source, last = .nameImport target source →
      (q.exportedFrom (c.findModule? target (c.project? m)) source).run s =
        (.ok (atEnd ((others target).bind fun other => other source)), s)) :
    (resolveSource c q m last).run s = (.ok (some (.classObject k false)), s) := by
  cases last with
  | classStatement k' =>
    obtain rfl : k' = k := Option.some.inj hk
    rfl
  | nameImport target source =>
    show (importFrom c q _ target source >>= fun b => pure (some b)).run s = _
    rw [run_bind, importFrom, run_bind, hq target source rfl,
      show ((others target).bind fun other => other source) = some k from hk]
    rfl
  | _ => cases hk

/-- **A binding is worked out by looking back** from the end of the moves of a module, where it is
so in the modules that the name is taken from. -/
theorem run_resolveExport_eq_lookBack
    (houtline : c.outline m = moves.foldl Outline.addMove {})
    (hown : moves.filterMap (Move.source? name) ≠ [] → (lookBack others moves name).isSome)
    (hq : ∀ p ∈ drawn moves name,
      (q.exportedFrom (c.findModule? p.1 (c.project? m)) p.2).run s =
        (.ok (atEnd ((others p.1).bind fun other => other p.2)), s)) :
    (resolveExport c q m name).run s = (.ok (atEnd (lookBack others moves name)), s) := by
  have hfind := Outline.find?_foldl_addMove moves name
  have hwildcards := Outline.wildcards_foldl_addMove moves
  rw [← houtline] at hfind hwildcards
  cases hlast : (moves.filterMap (Move.source? name)).getLast? with
  | some last =>
    have hne : moves.filterMap (Move.source? name) ≠ [] := by
      rintro hnil
      rw [hnil] at hlast
      cases hlast
    rw [if_neg hne] at hfind
    have hback : lookBack others moves name = last.classIn others := by rw [lookBack, hlast]
    obtain ⟨k, hk⟩ := Option.isSome_iff_exists.mp (hown hne)
    obtain ⟨move, hmove, hsource⟩ := List.mem_filterMap.mp (List.mem_of_getLast? hlast)
    rw [hk]
    refine run_resolveExport_of_last hfind hlast ?_ nofun
    refine run_resolveSource_of_move hsource (hback.symm.trans hk) fun target source heq => ?_
    exact hq (target, source) (by simp [drawn, hlast, heq])
  | none =>
    rw [if_pos (List.getLast?_eq_none_iff.mp hlast)] at hfind
    rw [resolveExport, hfind, lookBack, hlast]
    dsimp only
    by_cases hpublic : isPublic name
    · rw [if_neg (by simpa [isPublic] using hpublic), if_pos hpublic, hwildcards]
      refine run_firstExport fun u hu => hq (u, name) ?_
      rw [drawn, hlast]
      dsimp only
      rw [if_pos hpublic]
      exact List.mem_map_of_mem hu
    · rw [if_pos (by simpa [isPublic] using hpublic), if_neg hpublic]
      rfl

end

namespace Codebase

/-- Versions of a codebase that give the same answer agree on it. -/
theorem agreed_of_forall {versions : List Codebase}
    {answer : Codebase → Except Fault (Option Denotation)} {r : Except Fault (Option Denotation)}
    (hne : versions ≠ []) (h : ∀ c ∈ versions, answer c = r) : agreed versions answer = r := by
  cases versions with
  | nil => exact absurd rfl hne
  | cons c rest =>
    have hc := h c List.mem_cons_self
    rw [agreed, if_pos fun c' hc' => (h c' (List.mem_cons_of_mem _ hc')).trans hc.symm, hc]

end Codebase

/-! ### The binding at the end -/

section

open Codebase

variable {modules : List ModuleDecls} {vs : List Codebase} {i : Nat} {d : ModuleDecls}
  {name : String}

theorem Importing.outline_eq (h : Importing modules) (hi : modules[i]? = some d)
    (bases : Table ClassId (List ClassId)) :
    ({ ofModules modules with bases } : Codebase).outline i =
      (movesIn modules d.source.name).foldl Outline.addMove {} := by
  have houtline : (modules.mapIdx fun j d => Outline.ofModule d.source j)[i]? =
      some (Outline.ofModule d.source i) := by simp [hi]
  rw [outline, show ({ ofModules modules with bases } : Codebase).outlines = _ from rfl, ofModules,
    houtline, Option.getD_some, Outline.ofModule_eq h (List.mem_of_getElem? hi), h.movesIn_eq hi]

/-- **A steady name has the binding that a run leaves**, worked out in whatever versions of the
modules. The induction is on the depth of the run: what it takes from other modules has been run one
level deeper. -/
theorem Importing.settles_of_execute (h : Importing modules) (hne : vs ≠ [])
    (hvs : ∀ c ∈ vs, ∃ bases, c = { ofModules modules with bases }) {depth : Nat}
    (hdepth : depth ≤ modules.length) {ns : Namespace} (hi : modules[i]? = some d)
    (hrun : execute modules depth d.source.name = some ns)
    (hsteady : Steady modules d.source.name name) : Settles vs i name (.ok (atEnd (ns name))) := by
  induction depth generalizing i d name ns with
  | zero => cases hrun
  | succ depth ih =>
    rw [execute_succ, if_pos (List.mem_map.mpr ⟨d, List.mem_of_getElem? hi, rfl⟩)] at hrun
    have hends : ∀ u o, execute modules depth u = some o → ending modules u = some o :=
      fun u o => execute_mono (by omega)
    have hback : ns name = lookBack (ending modules) (movesIn modules d.source.name) name :=
      runMoves_eq_lookBack hsteady.undisturbed (runMoves_mono hends hrun)
    refine ⟨nofun, (ofModules modules).depth + 1, agreed_of_forall hne fun c hc => ?_⟩
    obtain ⟨bases, rfl⟩ := hvs c hc
    rw [hback]
    refine congrArg Prod.fst (run_resolveExport_eq_lookBack (h.outline_eq hi bases) ?_ ?_)
    · rw [← hback]
      exact isSome_of_source? hrun
    · intro p hp
      obtain ⟨move, hmove, htarget⟩ := exists_move_of_mem_drawn hp
      obtain ⟨other, hother⟩ := exists_other_of_runMoves hrun hmove htarget
      obtain ⟨d', hd', hname⟩ := List.mem_map.mp (h.mem_of_imports ⟨move, hmove, htarget⟩)
      obtain ⟨j, hj⟩ := List.mem_iff_getElem?.mp hd'
      have hsteady' := hsteady.of_mem_drawn hp
      rw [← hname] at hother hsteady' ⊢
      have hfound : unfolded vs (ofModules modules).depth (.ofName j p.2) = _ :=
        ((settles_iff (outlined_ofModules modules []) hvs).mp (ih (by omega) hj hother hsteady')).2
      rw [h.findModule?_eq hj rfl, hends _ _ hother]
      exact (Answers.run_reply _ (.ofName j p.2) []).trans (by rw [hfound]; rfl)

end

namespace Environment

open Codebase

/-- **The binding of a name is the one that it has at the end of its module**, when the statements
are run in their order: for all modules that consist of class statements and of imports from each
other and can be run, with any base classes, whatever has been asked before, and for every name that
imports of all names leave as it is, there and wherever it is taken from. -/
theorem export_eq_ending {modules : List ModuleDecls} (h : Importing modules)
    (bases : Table ClassId (List ClassId)) (events : List Event) {m : Nat} {d : ModuleDecls}
    (hm : modules[m]? = some d) :
    ∃ ns, ending modules d.source.name = some ns ∧
      ∀ name, Steady modules d.source.name name →
        (run ⟨{ Codebase.ofModules modules with bases }, []⟩ events).export? m name =
          .ok ((ns name).map fun k => .classObject k false) := by
  let e : Environment := ⟨{ Codebase.ofModules modules with bases }, []⟩
  obtain ⟨ns, hns⟩ := h.exists_ending (List.mem_map.mpr ⟨d, List.mem_of_getElem? hm, rfl⟩)
  refine ⟨ns, hns, fun name hsteady => ?_⟩
  have hsettles : Settles (e.versions events) m name (.ok (atEnd (ns name))) :=
    h.settles_of_execute (List.ne_nil_of_mem (e.codebase_mem_versions events))
      (fun c hc => exists_bases_of_mem_versions hc) (Nat.le_refl _) hm hns hsteady
  obtain ⟨bases', hrun⟩ := e.exists_bases_run events
  obtain ⟨hright, hmem⟩ := right_run (fun c hc => hc) (right_nil (e.versions events))
  refine export?_eq ?_ hmem hright hsettles
  rw [hrun]
  exact outlined_ofModules modules bases'

/-- Two modules that declare a class of one name, one that takes all names from both, and one that
declares such a class itself before it takes all names of the first one. -/
def rivals : List ModuleDecls :=
  let classNamed (line : Nat) (name : String) : Syntax.Node :=
    .classDef ⟨line, 0, line⟩ name [] [] [.plain ⟨line, 9, line⟩ .passing []] []
  let fromModule (line : Nat) (source name : String) (asName : Option String) : Syntax.Node :=
    .importFrom ⟨line, 0, line⟩ (some source) [⟨name, asName⟩] 0
  [extractModule { name := "a", project := "p", body := [classNamed 0 "X", classNamed 1 "Y"] },
    extractModule { name := "b", project := "p", body := [classNamed 0 "X"] },
    extractModule
      { name := "c", project := "p"
        body := [fromModule 0 "a" "*" none, fromModule 1 "b" "*" none] },
    extractModule
      { name := "d", project := "p"
        body := [classNamed 0 "X", fromModule 1 "c" "Y" (some "Z"), fromModule 2 "a" "*" none] }]

theorem importing_rivals : Importing rivals where
  distinct := by decide +kernel
  plain := by
    intro d hd stmt hstmt
    simp only [rivals, List.mem_cons, List.not_mem_nil, or_false] at hd
    obtain rfl | rfl | rfl | rfl := hd <;>
      simp only [extractModule, List.mem_cons, List.not_mem_nil, or_false] at hstmt
    · rcases hstmt with rfl | rfl <;> trivial
    · obtain rfl := hstmt
      trivial
    · obtain rfl | rfl := hstmt
      · exact ⟨"a", rfl, by decide +kernel⟩
      · exact ⟨"b", rfl, by decide +kernel⟩
    · obtain rfl | rfl | rfl := hstmt
      · trivial
      · exact ⟨"c", rfl, by decide +kernel⟩
      · exact ⟨"a", rfl, by decide +kernel⟩
  acyclic := by
    refine acyclic_of_rank (rivals.map fun d => d.source.name).idxOf fun t u himports => ?_
    have hdown : ∀ p ∈ rivals.zipIdx, ∀ move ∈ movesOf p.1 p.2, ∀ u ∈ move.target?,
        (rivals.map fun d => d.source.name).idxOf u <
          (rivals.map fun d => d.source.name).idxOf p.1.source.name := by decide +kernel
    obtain ⟨move, hmove, hu⟩ := himports
    obtain ⟨p, hp, hname, hmoves⟩ := exists_module_of_mem_movesIn hmove
    rw [← hname]
    exact hdown p hp move hmoves u hu
  bound t name target source hmem := by
    have hmoves : rivals.zipIdx.flatMap (fun p => movesOf p.1 p.2) =
        [.declare "X" ⟨0, ⟨0, 0⟩⟩, .declare "Y" ⟨0, ⟨1, 0⟩⟩, .declare "X" ⟨1, ⟨0, 0⟩⟩,
          .takeAll "a", .takeAll "b", .declare "X" ⟨3, ⟨0, 0⟩⟩, .take "Z" "c" "Y",
          .takeAll "a"] := by
      decide +kernel
    obtain ⟨p, hp, -, hmem⟩ := exists_module_of_mem_movesIn hmem
    have htake : _ ∈ rivals.zipIdx.flatMap fun p => movesOf p.1 p.2 :=
      List.mem_flatMap.mpr ⟨p, hp, hmem⟩
    rw [hmoves] at htake
    obtain ⟨-, rfl, rfl⟩ : name = "Z" ∧ target = "c" ∧ source = "Y" := by simpa using htake
    have hdeclared : Move.declare "Y" ⟨0, ⟨1, 0⟩⟩ ∈ movesIn rivals "a" := by decide +kernel
    exact .taken (u := "a") (by decide +kernel) (by decide +kernel) (.own hdeclared rfl)

/-- A class that is taken over with all others, and then from there under another name, is bound to
that name in the end, although others are taken over afterwards and the name was asked for
before. -/
theorem export_eq_ending_rivals :
    Importing rivals ∧ Steady rivals "d" "Z" ∧
      (run ⟨Codebase.ofModules rivals, []⟩ [.query (.exported 2 "X")]).export? 3 "Z" =
        .ok (some (.classObject ⟨0, ⟨1, 0⟩⟩ false)) := by
  have hsteady : Steady rivals "d" "Z" :=
    .of_closed [("d", "Z"), ("c", "Y"), ("a", "Y"), ("b", "Y")] (by decide +kernel)
      (by decide +kernel) (by decide)
  obtain ⟨ns, hns, h⟩ :=
    export_eq_ending importing_rivals [] [.query (.exported 2 "X")] (m := 3) rfl
  have hclass : (ending rivals "d").bind (fun ns => ns "Z") = some ⟨0, ⟨1, 0⟩⟩ := by decide +kernel
  refine ⟨importing_rivals, hsteady, (h "Z" hsteady).trans ?_⟩
  rw [show ending rivals "d" = some ns from hns] at hclass
  rw [show ns "Z" = some ⟨0, ⟨1, 0⟩⟩ from hclass]
  rfl

/-- Of two classes that are taken over one after the other, the binding is the first one, and a run
leaves the second one. -/
theorem export_differs :
    ¬ ∀ (modules : List ModuleDecls) (m : Nat) (d : ModuleDecls) (ns : Namespace) (name : String),
      Importing modules → modules[m]? = some d → ending modules d.source.name = some ns →
        export? ⟨Codebase.ofModules modules, []⟩ m name =
          .ok ((ns name).map fun k => .classObject k false) := by
  intro h
  obtain ⟨ns, hns⟩ := importing_rivals.exists_ending (t := "c") (by decide +kernel)
  have hclass : (ending rivals "c").bind (fun ns => ns "X") = some ⟨1, ⟨0, 0⟩⟩ := by decide +kernel
  have hexport := h rivals 2 _ ns "X" importing_rivals rfl hns
  rw [hns] at hclass
  rw [show ns "X" = some ⟨1, ⟨0, 0⟩⟩ from hclass] at hexport
  revert hexport
  decide +kernel

/-- And a class that all names are taken over to stays, where a run leaves the other one. -/
example :
    export? ⟨Codebase.ofModules rivals, []⟩ 3 "X" = .ok (some (.classObject ⟨3, ⟨0, 0⟩⟩ false)) ∧
      (ending rivals "d").bind (fun ns => ns "X") = some ⟨0, ⟨0, 0⟩⟩ := by
  decide +kernel

end Environment

end Concordance.Binding
