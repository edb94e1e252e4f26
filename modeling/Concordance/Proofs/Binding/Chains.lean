import Concordance.Proofs.Binding.Inheriting

/-!
# How bindings are reached

A name of a module that denotes a class was bound to it in one of a few ways. The source that
decided may be a class statement, an import of the name from another module, or a variable that
holds the class. Without a source of its own the name may come from a module of which all names are
taken over. The name that it comes from there was reached in one of these ways again, and so on, up
to a class statement or a variable.

Which source decided depends on the moment at which the name was asked for: on what was kept then,
and on the questions that were open. The answer is kept from then on, whatever the same question
would lead to later. So a way is a matter of the moments that the work comes to, one for each name
on it.

## Main definitions

* `Comes`: the moments that the work can come to
* `Decides`, `TakesOver`: what a name is bound by at such a moment
* `Hop`, `Reaches`: ways from a name to a class

## Main results

* `exists_reaches_of_exported`: whatever class a name denotes is reached in some way
* `aliased_iff_of_reaches`: it is held by a variable if and only if the way leads through one
-/

namespace Concordance.Binding

open Codebase Syntax

/-! ### Moments -/

/-- A moment that the work on some versions of a codebase can come to: a version, how much deeper
questions can go, the questions that are open, and what is kept. At first nothing is kept. Questions
are asked one after the other, and from one version on to another one. While one is being answered
that is neither kept nor open, others are asked one level deeper. -/
inductive Comes (vs : List Codebase) : Codebase → (depth : Nat) → Open → Cache → Prop
  | start {c : Codebase} (hc : c ∈ vs) : Comes vs c c.depth {} []
  | version {c c' : Codebase} {s : Cache} (hc : c' ∈ vs) (h : Comes vs c c.depth {} s) :
      Comes vs c' c'.depth {} s
  | reply {c : Codebase} {depth : Nat} {asked : Open} {s : Cache} {Q : Question} (hQ : c.Asks Q)
      (h : Comes vs c depth asked s) :
      Comes vs c depth asked (((c.questions depth asked).reply Q).run s).2
  | opening {c : Codebase} {depth : Nat} {asked : Open} {s : Cache} {Q : Question} (hQ : c.Asks Q)
      (hkept : Q.kept? s = none) (hopen : ¬ asked.Has Q) (h : Comes vs c (depth + 1) asked s) :
      Comes vs c depth (asked.add Q) s

section

variable {vs : List Codebase} {c : Codebase} {s : Cache}

theorem Comes.mem {depth : Nat} {asked : Open} (h : Comes vs c depth asked s) : c ∈ vs := by
  induction h with
  | start hc => exact hc
  | version hc => exact hc
  | reply _ _ ih => exact ih
  | opening _ _ _ _ ih => exact ih

theorem keeps_comes (Q : Question) (hQ : c.Asks Q) :
    Keeps (Comes vs c c.depth {}) (c.ask.reply Q) :=
  fun _ hs => .reply hQ hs

/-- Events lead from one moment to another. -/
theorem comes_run {e : Environment} {events : List Event} (hvs : ∀ c ∈ e.versions events, c ∈ vs)
    (he : Comes vs e.codebase e.codebase.depth {} e.kept) :
    Comes vs (e.run events).codebase (e.run events).codebase.depth {} (e.run events).kept := by
  induction events generalizing e with
  | nil => exact he
  | cons event later ih =>
    refine ih (fun c hc => hvs c (List.mem_cons_of_mem _ hc)) (.version ?_
      (Environment.kept_step (I := Comes vs e.codebase e.codebase.depth {}) keeps_comes he event))
    exact hvs _ (List.mem_cons_of_mem _ ((e.step event).codebase_mem_versions later))

end

/-! ### What a name is bound by -/

/-- A name of a module is asked for at some moment, and has to be found out. -/
structure AskedFor (vs : List Codebase) (c : Codebase) (m : Nat) (name : String) (depth : Nat)
    (asked : Open) (s : Cache) : Prop where
  comes : Comes vs c (depth + 1) asked s
  kept : (Question.ofName m name).kept? s = none
  isOpen : ¬ asked.Has (.ofName m name)

/-- The questions that are asked to find it out. -/
def deeper (c : Codebase) (m : Nat) (name : String) (depth : Nat) (asked : Open) : Questions :=
  c.questions depth (asked.add (.ofName m name))

/-- A source decides what a name is bound to: the name is asked for, the sources that follow say
nothing, and this one says `b`. -/
inductive Decides (vs : List Codebase) (c : Codebase) (m : Nat) (name : String) (source : Source)
    (b : Denotation) : Prop
  | intro {depth : Nat} {asked : Open} {s s' s'' : Cache} {earlier later : List Source}
      (hasked : AskedFor vs c m name depth asked s)
      (hsources : (c.outline m).names.find? name = some (earlier ++ source :: later))
      (hlater : (firstInformative c (deeper c m name depth asked) m later.reverse).run s =
        (.ok .other, s'))
      (hsource : (resolveSource c (deeper c m name depth asked) m source).run s' =
        (.ok (some b), s''))

/-- A name is taken over from a module: it has no source of its own and is public, the modules
before that one do not bind it, and this one binds it to `b`. -/
inductive TakesOver (vs : List Codebase) (c : Codebase) (m : Nat) (name target : String)
    (b : Denotation) : Prop
  | intro {depth : Nat} {asked : Open} {s s' s'' : Cache} {before after : List String}
      (hasked : AskedFor vs c m name depth asked s)
      (hsources : (c.outline m).names.find? name = none) (hpublic : name.startsWith "_" = false)
      (htargets : (c.outline m).wildcards = before ++ target :: after)
      (hbefore : (firstExport c (deeper c m name depth asked) m name before).run s = (.ok none, s'))
      (htarget : ((deeper c m name depth asked).exportedFrom
        (c.findModule? target (c.project? m)) name).run s' = (.ok (some b), s''))

/-! ### Ways -/

/-- What a way goes through. -/
inductive Hop where
  | classStatement
  /-- An import of the name, maybe under another one. -/
  | nameImport
  /-- An import of all names. -/
  | wildcard
  /-- Something that holds the class as a value: an assignment, or a parameter. -/
  | variable
deriving DecidableEq

/-- A name of a module is bound to something, and was so in this way: by a class statement or by a
variable in the end, and before that by imports from module to module. -/
inductive Reaches (vs : List Codebase) : (m : Nat) → (name : String) → Denotation → List Hop → Prop
  | classStatement {c : Codebase} {m : Nat} {name : String} {k : ClassId} {b : Denotation}
      (h : Decides vs c m name (.classStatement k) b) : Reaches vs m name b [.classStatement]
  | nameImport {c : Codebase} {m t : Nat} {name target source : String} {b : Denotation}
      {way : List Hop} (h : Decides vs c m name (.nameImport target source) b)
      (ht : c.findModule? target (c.project? m) = some t) (hway : Reaches vs t source b way) :
      Reaches vs m name b (.nameImport :: way)
  | wildcard {c : Codebase} {m t : Nat} {name target : String} {b : Denotation} {way : List Hop}
      (h : TakesOver vs c m name target b)
      (ht : c.findModule? target (c.project? m) = some t) (hway : Reaches vs t name b way) :
      Reaches vs m name b (.wildcard :: way)
  | assigned {c : Codebase} {m : Nat} {name : String} {d : Designator} {b : Denotation}
      (h : Decides vs c m name (.value d) b) : Reaches vs m name b [.variable]
  | hinted {c : Codebase} {m : Nat} {name : String} {hint : Hint} {value : Option Designator}
      {b : Denotation} (h : Decides vs c m name (.hinted hint value) b) :
      Reaches vs m name b [.variable]

/-- If something is a class, it has been reached in some way. -/
def Explained (vs : List Codebase) (m : Nat) (name : String) (found : Option Denotation) : Prop :=
  ∀ k aliased, found = some (.classObject k aliased) →
    ∃ way, Reaches vs m name (.classObject k aliased) way

/-- All classes that are kept have been reached in some way. -/
def AllExplained (vs : List Codebase) (s : Cache) : Prop :=
  ∀ m name found, s.find? (m, name) = some found → Explained vs m name found

/-! ### The source that decides -/

section

variable {c : Codebase} {q : Questions} {m : Nat} {name : String} {b : Denotation} {s s' : Cache}

/-- What the first of some sources says that says anything. -/
theorem exists_of_firstInformative {sources : List Source} (hb : b ≠ .other)
    (h : (firstInformative c q m sources).run s = (.ok b, s')) :
    ∃ before source after t t', sources = before ++ source :: after ∧
      (firstInformative c q m before).run s = (.ok .other, t) ∧
      (resolveSource c q m source).run t = (.ok (some b), t') := by
  induction sources generalizing s with
  | nil =>
    obtain ⟨hother, -⟩ := Prod.mk.inj h
    exact absurd (Except.ok.inj hother).symm hb
  | cons first rest ih =>
    rw [firstInformative, run_bind] at h
    rcases hfirst : (resolveSource c q m first).run s with ⟨e | found, t⟩
    · rw [hfirst] at h
      cases h
    rw [hfirst] at h
    -- where the first one says nothing, the others are looked at
    have hrest (hfound : found = none ∨ found = some .other)
        (h : (firstInformative c q m rest).run t = (.ok b, s')) :
        ∃ before source after t t', first :: rest = before ++ source :: after ∧
          (firstInformative c q m before).run s = (.ok .other, t) ∧
          (resolveSource c q m source).run t = (.ok (some b), t') := by
      obtain ⟨before, source, after, u, u', rfl, hbefore, hsource⟩ := ih h
      refine ⟨first :: before, source, after, u, u', rfl, ?_, hsource⟩
      rw [firstInformative, run_bind, hfirst]
      rcases hfound with rfl | rfl <;> exact hbefore
    dsimp only at h
    split at h
    · exact hrest (.inl rfl) h
    · exact hrest (.inr rfl) h
    · obtain ⟨hb', -⟩ := Prod.mk.inj h
      obtain rfl := Except.ok.inj hb'
      exact ⟨[], first, rest, s, t, rfl, rfl, hfirst⟩

/-- What the first of some modules binds a name to that binds it. -/
theorem exists_of_firstExport {targets : List String}
    (h : (firstExport c q m name targets).run s = (.ok (some b), s')) :
    ∃ before target after t t', targets = before ++ target :: after ∧
      (firstExport c q m name before).run s = (.ok none, t) ∧
      (q.exportedFrom (c.findModule? target (c.project? m)) name).run t = (.ok (some b), t') := by
  induction targets generalizing s with
  | nil => cases (Prod.mk.inj h).1
  | cons first rest ih =>
    rw [firstExport, run_bind] at h
    rcases hfirst : (q.exportedFrom (c.findModule? first (c.project? m)) name).run s with
      ⟨e | found, t⟩
    · rw [hfirst] at h
      cases h
    rw [hfirst] at h
    cases found with
    | some b' =>
      obtain ⟨hb', -⟩ := Prod.mk.inj h
      obtain rfl := Option.some.inj (Except.ok.inj hb')
      exact ⟨[], first, rest, s, t, rfl, rfl, hfirst⟩
    | none =>
      obtain ⟨before, target, after, u, u', rfl, hbefore, htarget⟩ := ih h
      refine ⟨first :: before, target, after, u, u', rfl, ?_, htarget⟩
      rw [firstExport, run_bind, hfirst]
      exact hbefore

/-- An import binds a class only if the module that it names does. -/
theorem exists_of_importFrom {project : Option String} {target : String} {k : ClassId}
    {aliased : Bool}
    (h : (importFrom c q project target name).run s = (.ok (.classObject k aliased), s')) :
    ∃ t, c.findModule? target project = some t ∧
      ∃ u, (q.exported t name).run s = (.ok (some (.classObject k aliased)), u) := by
  have hbelow (b : Prop) [Decidable b] (below : String) :
      (if b then .moduleNamed below else .other) ≠ Denotation.classObject k aliased := by
    split <;> rintro ⟨⟩
  rw [importFrom, run_bind] at h
  rcases hrun : (q.exportedFrom (c.findModule? target project) name).run s with ⟨e | found, u⟩
  · rw [hrun] at h
    cases h
  rw [hrun] at h
  cases found with
  | none => exact absurd (Except.ok.inj (Prod.mk.inj h).1) (hbelow _ _)
  | some b =>
    obtain rfl := Except.ok.inj (Prod.mk.inj h).1
    cases ht : c.findModule? target project with
    | none =>
      rw [ht] at hrun
      cases Except.ok.inj (Prod.mk.inj hrun).1
    | some t =>
      rw [ht] at hrun
      exact ⟨t, rfl, u, hrun⟩

end

/-! ### Ways of what is found -/

section

variable {vs : List Codebase} {c : Codebase} {depth : Nat} {asked : Open} {m : Nat}
  {name : String} {s s' : Cache} {J : Cache → Prop}
  (hexplained : ∀ t n u found u', J u →
    ((deeper c m name depth asked).exported t n).run u = (.ok found, u') → Explained vs t n found)

include hexplained

/-- A source that decides on a class is a class statement, an import of the class, or a variable. -/
theorem exists_reaches_of_decides {source : Source} {k : ClassId} {aliased : Bool}
    {u u' : Cache} (hu : J u)
    (hrun : (resolveSource c (deeper c m name depth asked) m source).run u =
      (.ok (some (.classObject k aliased)), u'))
    (h : Decides vs c m name source (.classObject k aliased)) :
    ∃ way, Reaches vs m name (.classObject k aliased) way := by
  cases source with
  | classStatement k' => exact ⟨_, .classStatement h⟩
  | moduleImport target => cases (Prod.mk.inj hrun).1
  | nameImport target imported =>
    rw [resolveSource, run_bind] at hrun
    rcases himport : (importFrom c (deeper c m name depth asked) (c.project? m) target
      imported).run u with ⟨e | b, t⟩
    · rw [himport] at hrun
      cases hrun
    rw [himport] at hrun
    obtain rfl : b = .classObject k aliased :=
      Option.some.inj (Except.ok.inj (Prod.mk.inj hrun).1)
    obtain ⟨t, ht, u'', hexported⟩ := exists_of_importFrom himport
    obtain ⟨way, hway⟩ := hexplained t imported u _ u'' hu hexported k aliased rfl
    exact ⟨_, .nameImport h ht hway⟩
  | value d => exact ⟨_, .assigned h⟩
  | hinted hint value => exact ⟨_, .hinted h⟩
  | other => cases Option.some.inj (Except.ok.inj (Prod.mk.inj hrun).1)

/-- What a name is found to be bound to has been reached in some way, if what it leads to has. -/
theorem explained_of_resolveExport
    (hkeeps : ∀ Q, c.Asks Q → Keeps J ((deeper c m name depth asked).reply Q))
    (hasked : AskedFor vs c m name depth asked s) (hs : J s)
    {found : Option Denotation}
    (h : (resolveExport c (deeper c m name depth asked) m name).run s = (.ok found, s')) :
    Explained vs m name found := by
  rintro k aliased rfl
  have hJ := congruence_keeps J
  rw [resolveExport] at h
  split at h
  · rename_i sources hsources
    rw [map_eq_pure_bind, run_bind] at h
    rcases hfirst : (firstInformative c (deeper c m name depth asked) m sources.reverse).run s with
      ⟨e | b, t⟩
    · rw [hfirst] at h
      cases h
    rw [hfirst] at h
    obtain rfl : b = .classObject k aliased := Option.some.inj (Except.ok.inj (Prod.mk.inj h).1)
    obtain ⟨before, source, after, u, u', hsplit, hbefore, hsource⟩ :=
      exists_of_firstInformative (by rintro ⟨⟩) hfirst
    have hlater : Keeps J (firstInformative c (deeper c m name depth asked) m before) :=
      hJ.toSequential.firstInformative (p := deeper c m name depth asked) hkeeps m
        fun _ _ why _ => hJ.throw why
    have hu := hlater s hs
    rw [hbefore] at hu
    have hsources' : sources = after.reverse ++ source :: before.reverse := by
      simpa using congrArg List.reverse hsplit
    rw [hsources'] at hsources
    exact exists_reaches_of_decides hexplained hu hsource
      (.intro hasked hsources (by rwa [List.reverse_reverse]) hsource)
  · rename_i hsources
    split at h
    · cases (Prod.mk.inj h).1
    · rename_i hpublic
      obtain ⟨before, target, after, u, u', htargets, hbefore, htarget⟩ := exists_of_firstExport h
      have hu := hJ.toSequential.firstExport (p := deeper c m name depth asked)
        (fun t => hkeeps (.ofName t name) trivial) c m before s hs
      rw [hbefore] at hu
      have htakes : TakesOver vs c m name target (.classObject k aliased) :=
        .intro hasked hsources (Bool.eq_false_of_not_eq_true hpublic) htargets hbefore htarget
      cases ht : c.findModule? target (c.project? m) with
      | none =>
        rw [ht] at htarget
        cases (Prod.mk.inj htarget).1
      | some t =>
        rw [ht] at htarget
        obtain ⟨way, hway⟩ := hexplained t name u _ u' hu htarget k aliased rfl
        exact ⟨_, .wildcard htakes ht hway⟩

end

section

variable {vs : List Codebase} {c : Codebase} {depth : Nat} {asked : Open} {s : Cache}

theorem AllExplained.keep (h : AllExplained vs s) {Q : Question} {found : Option Denotation}
    (hfound : ∀ m name, Q = .ofName m name → Explained vs m name found) :
    AllExplained vs (Q.keep found s) := by
  cases Q with
  | ofMember owner attr aspect => exact h
  | ofName m name =>
    intro m' name' found' hfind
    rw [Question.keep, Table.find?_insert] at hfind
    split at hfind
    · rename_i heq
      obtain ⟨rfl, rfl⟩ := Prod.mk.inj heq
      obtain rfl := Option.some.inj hfind
      exact hfound m name rfl
    · exact h m' name' found' hfind

/-- **Replies are explained.** Where all that is kept has been reached in some way, so has what a
question is answered with and what is kept then. -/
theorem explained_reply {Q : Question} (hQ : c.Asks Q) (h : Comes vs c depth asked s)
    (hs : AllExplained vs s) :
    AllExplained vs (((c.questions depth asked).reply Q).run s).2 ∧
      ∀ m name found, Q = .ofName m name →
        (((c.questions depth asked).reply Q).run s).1 = .ok found → Explained vs m name found := by
  induction depth generalizing asked s Q with
  | zero =>
    have hrun : ((c.questions 0 asked).reply Q).run s = (.error .tooDeep, s) := by
      cases Q <;> rfl
    rw [hrun]
    exact ⟨hs, fun _ _ _ _ hfound => by cases hfound⟩
  | succ depth ih =>
    rw [run_reply]
    cases hkept : Q.kept? s with
    | some kept =>
      refine ⟨hs, ?_⟩
      rintro m name found rfl hfound
      obtain rfl := Except.ok.inj hfound
      exact hs m name kept hkept
    | none =>
      dsimp only
      split
      · refine ⟨hs, ?_⟩
        rintro m name found - hfound
        obtain rfl := Except.ok.inj hfound
        rintro k aliased ⟨⟩
      · rename_i hopen
        let J : Cache → Prop := fun u => Comes vs c depth (asked.add Q) u ∧ AllExplained vs u
        have hkeeps (Q' : Question) (hQ' : c.Asks Q') :
            Keeps J ((c.questions depth (asked.add Q)).reply Q') :=
          fun u hu => ⟨.reply hQ' hu.1, (ih hQ' hu.1 hu.2).1⟩
        have hJ : J s := ⟨.opening hQ hkept hopen h, hs⟩
        have hafter := (congruence_keeps J).answer
          (p := c.questions depth (asked.add Q)) hkeeps Q s hJ
        rcases hrun : (c.answer (c.questions depth (asked.add Q)) Q).run s with ⟨e | found, s'⟩
        · rw [hrun] at hafter
          exact ⟨hafter.2, fun _ _ _ _ hfound => by cases hfound⟩
        · rw [hrun] at hafter
          have hfound (m : Nat) (name : String) (hname : Q = .ofName m name) :
              Explained vs m name found := by
            subst hname
            refine explained_of_resolveExport (fun t n u found u' hu hexported => ?_) hkeeps
              ⟨h, hkept, hopen⟩ hJ hrun
            exact (ih (Q := .ofName t n) trivial hu.1 hu.2).2 t n found rfl
              (congrArg Prod.fst hexported)
          refine ⟨hafter.2.keep hfound, ?_⟩
          rintro m name found' hname ⟨⟩
          exact hfound m name hname

/-- Whatever is kept at a moment has been reached in some way. -/
theorem Comes.allExplained (h : Comes vs c depth asked s) : AllExplained vs s := by
  induction h with
  | start => exact fun _ _ _ hfind => by cases hfind
  | version _ _ ih => exact ih
  | reply hQ h ih => exact (explained_reply hQ h ih).1
  | opening _ _ _ _ ih => exact ih

/-- Whatever class a name denotes has been reached in some way. -/
theorem exists_reaches_of_exported {m : Nat} {name : String} {k : ClassId} {aliased : Bool}
    {s' : Cache} (h : Comes vs c c.depth {} s)
    (hrun : (c.ask.exported m name).run s = (.ok (some (.classObject k aliased)), s')) :
    ∃ way, Reaches vs m name (.classObject k aliased) way :=
  (explained_reply (Q := .ofName m name) trivial h h.allExplained).2 m name _ rfl
    (congrArg Prod.fst hrun) k aliased rfl

end

/-! ### Variables on the way -/

section

variable {vs : List Codebase} {c : Codebase} {q : Questions} {m : Nat} {s s' : Cache}

theorem ownClass?_of_run_map {x : Resolve (Option Denotation)} {b : Denotation}
    (h : (do return (← x).map Denotation.asValue : Resolve (Option Denotation)).run s =
      (.ok (some b), s')) : b.ownClass? = none := by
  rw [run_bind] at h
  rcases hx : x.run s with ⟨e | found, t⟩
  · rw [hx] at h
    cases h
  rw [hx] at h
  obtain ⟨b', -, rfl⟩ := Option.map_eq_some_iff.mp (Except.ok.inj (Prod.mk.inj h).1)
  exact b'.ownClass?_asValue

/-- A class is held by a variable if and only if the way to it leads through one. -/
theorem aliased_iff_of_reaches {name : String} {k : ClassId} {aliased : Bool} {way : List Hop}
    (h : Reaches vs m name (.classObject k aliased) way) :
    aliased = true ↔ .variable ∈ way := by
  generalize hb : Denotation.classObject k aliased = b at h
  induction h with
  | classStatement h =>
    obtain ⟨-, -, -, hsource⟩ := h
    cases hb.trans (Option.some.inj (Except.ok.inj (Prod.mk.inj hsource).1)).symm
    simp
  | nameImport _ _ _ ih => simp [ih hb]
  | wildcard _ _ _ ih => simp [ih hb]
  | assigned h =>
    obtain ⟨-, -, -, hsource⟩ := h
    have hown := ownClass?_of_run_map hsource
    subst hb
    cases aliased with
    | false => cases hown
    | true => simp
  | hinted h =>
    obtain ⟨-, -, -, hsource⟩ := h
    have hown := ownClass?_of_run_map hsource
    subst hb
    cases aliased with
    | false => cases hown
    | true => simp

/-- A way without variables ends at a class statement. -/
theorem exists_classStatement_of_reaches {name : String} {k : ClassId} {way : List Hop}
    (h : Reaches vs m name (.classObject k false) way) :
    ∃ c ∈ vs, ∃ m name sources, (c.outline m).names.find? name = some sources ∧
      .classStatement k ∈ sources := by
  have hvariable : .variable ∉ way := fun hmem =>
    Bool.false_ne_true ((aliased_iff_of_reaches h).mpr hmem)
  generalize hb : Denotation.classObject k false = b at h
  induction h with
  | classStatement h =>
    obtain ⟨hasked, hsources, -, hsource⟩ := h
    cases hb.trans (Option.some.inj (Except.ok.inj (Prod.mk.inj hsource).1)).symm
    exact ⟨_, hasked.comes.mem, _, _, _, hsources, by simp⟩
  | nameImport _ _ _ ih => exact ih (fun hmem => hvariable (List.mem_cons_of_mem _ hmem)) hb
  | wildcard _ _ _ ih => exact ih (fun hmem => hvariable (List.mem_cons_of_mem _ hmem)) hb
  | assigned => exact absurd List.mem_cons_self hvariable
  | hinted => exact absurd List.mem_cons_self hvariable

end

end Concordance.Binding
