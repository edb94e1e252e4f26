import Concordance.Query.Answer
import Mathlib.Data.List.Sort
import Mathlib.Data.Prod.Lex
import Mathlib.Data.String.Basic

/-!
# What a query asks for

The answer to a query, said without any index, any bookkeeping of what has been met and any order in
which things are looked at: the types that the declarations of all projects hold under the name, or
their members, the first of each id; then a row for each place in source text where one of them is
referred to, in ascending order.

## Main definitions

* `firstOfEach`: the first members of a list that share a key
* `Filter.Valid`: the queries that are asked
* `typesNamed`, `symbolsNamed`: the symbols that a query names
* `hits`, `Hit.key`: the places in source text where symbols are referred to
* `reference`: the answer to a query

## Main results

* `freshOf_cons_of_mem`, `freshOf_cons_of_not_mem`, `freshOf_append`: going through a list with what
  has been met so far finds the first of each
* `reference_congr`: neither the order nor the number of times in which places come matters
-/

namespace Concordance

/-! ### Rows in order -/

/-- What rows are ordered by: display name, then path, then line. -/
def Row.order (r : Row) : String ×ₗ String ×ₗ Int := toLex (r.displayName, toLex (r.path, r.line))

theorem Row.order_injective : Function.Injective Row.order := by
  rintro ⟨name, path, line⟩ ⟨name', path', line'⟩ h
  simpa [Row.order] using h

theorem Row.le_iff (a b : Row) : Row.le a b ↔ a.order ≤ b.order := by
  rw [Row.order, Row.order, Prod.Lex.toLex_le_toLex, Prod.Lex.toLex_le_toLex, Row.le]
  by_cases hname : a.displayName = b.displayName
  · by_cases hpath : a.path = b.path
    · simp [hname, hpath]
    · simp [hname, hpath]
  · simp [hname]

/-- Rows in ascending order are the same if they are the same in any order. -/
theorem Row.eq_of_perm {l l' : List Row} (hperm : l.Perm l')
    (hl : l.Pairwise fun a b => a.order ≤ b.order)
    (hl' : l'.Pairwise fun a b => a.order ≤ b.order) : l = l' :=
  hperm.eq_of_pairwise (fun _ _ _ _ hab hba => order_injective (le_antisymm hab hba)) hl hl'

instance : Std.Total fun a b : Row => a.order ≤ b.order := ⟨fun a b => le_total a.order b.order⟩

instance : IsTrans Row fun a b => a.order ≤ b.order := ⟨fun _ _ _ => le_trans⟩

/-- Rows are put in ascending order. -/
theorem Row.sort_eq (rows : List Row) :
    Row.sort rows = rows.insertionSort fun a b => a.order ≤ b.order := by
  have hsorted : (Row.sort rows).Pairwise fun a b => Row.le a b :=
    List.pairwise_mergeSort
      (fun a b c hab hbc => by
        rw [Row.le_iff] at hab hbc ⊢
        exact hab.trans hbc)
      (fun a b => by
        rw [Bool.or_eq_true, Row.le_iff, Row.le_iff]
        exact le_total a.order b.order) rows
  refine Row.eq_of_perm ((List.mergeSort_perm rows _).trans (List.perm_insertionSort _ rows).symm)
    (hsorted.imp fun {a b} => (Row.le_iff a b).mp) (List.pairwise_insertionSort _ rows)

theorem Row.insertionSort_eq_of_perm {l l' : List Row} (hperm : l.Perm l') :
    l.insertionSort (fun a b => a.order ≤ b.order) =
      l'.insertionSort fun a b => a.order ≤ b.order :=
  Row.eq_of_perm
    ((List.perm_insertionSort _ l).trans (hperm.trans (List.perm_insertionSort _ l').symm))
    (List.pairwise_insertionSort _ l) (List.pairwise_insertionSort _ l')

namespace Query

/-! ### The first of each -/

section

variable {α β : Type} [DecidableEq β] {key : α → β} {seen : List β} {a b : α} {l : List α}

/-- The first of the members of a list that share a key. -/
def firstOfEach (key : α → β) : List α → List α
  | [] => []
  | a :: rest => a :: (firstOfEach key rest).filter fun b => key b ≠ key a

/-- Those of the first members whose key has not been met. -/
def freshOf (key : α → β) (seen : List β) (l : List α) : List α :=
  (firstOfEach key l).filter fun a => key a ∉ seen

theorem freshOf_nil (key : α → β) (l : List α) : freshOf key [] l = firstOfEach key l := by
  simp [freshOf]

theorem freshOf_cons_of_mem (h : key a ∈ seen) (l : List α) :
    freshOf key seen (a :: l) = freshOf key seen l := by
  rw [freshOf, firstOfEach, List.filter_cons_of_neg (by simpa using h), List.filter_filter]
  refine List.filter_congr fun b _ => ?_
  by_cases hb : key b ∈ seen
  · simp [hb]
  · have hne : key b ≠ key a := fun heq => hb (heq ▸ h)
    simp [hb, hne]

theorem freshOf_cons_of_not_mem (h : key a ∉ seen) (l : List α) :
    freshOf key seen (a :: l) = a :: freshOf key (key a :: seen) l := by
  rw [freshOf, firstOfEach, List.filter_cons_of_pos (by simpa using h), List.filter_filter]
  congr 1
  refine List.filter_congr fun b _ => ?_
  simp [not_or, Bool.and_comm]

/-- Only what has been met matters, not in which order. -/
theorem freshOf_congr {seen' : List β} (h : ∀ k, k ∈ seen ↔ k ∈ seen') (l : List α) :
    freshOf key seen l = freshOf key seen' l :=
  List.filter_congr fun b _ => by simp [h]

theorem freshOf_append {seen' : List β} (l l' : List α)
    (h : ∀ k, k ∈ seen' ↔ k ∈ seen ∨ k ∈ l.map key) :
    freshOf key seen (l ++ l') = freshOf key seen l ++ freshOf key seen' l' := by
  induction l generalizing seen with
  | nil =>
    have hsame : freshOf key seen l' = freshOf key seen' l' :=
      freshOf_congr (fun k => by simp [h]) l'
    rw [List.nil_append, hsame]
    rfl
  | cons a l ih =>
    rw [List.cons_append]
    by_cases ha : key a ∈ seen
    · rw [freshOf_cons_of_mem ha, freshOf_cons_of_mem ha]
      refine ih fun k => ?_
      rw [h, List.map_cons, List.mem_cons]
      refine ⟨?_, Or.imp_right .inr⟩
      rintro (hk | rfl | hk)
      · exact .inl hk
      · exact .inl ha
      · exact .inr hk
    · rw [freshOf_cons_of_not_mem ha, freshOf_cons_of_not_mem ha, List.cons_append]
      refine congrArg (a :: ·) (ih fun k => ?_)
      rw [h, List.map_cons, List.mem_cons, List.mem_cons, or_left_comm, ← or_assoc]

theorem firstOfEach_sublist (key : α → β) (l : List α) : (firstOfEach key l).Sublist l := by
  induction l with
  | nil => exact .slnil
  | cons a l ih => exact .cons_cons a (List.filter_sublist.trans ih)

/-- No two of the first share a key. -/
theorem nodup_map_firstOfEach (key : α → β) (l : List α) : ((firstOfEach key l).map key).Nodup := by
  induction l with
  | nil => exact List.nodup_nil
  | cons a l ih =>
    rw [firstOfEach, List.map_cons, List.nodup_cons]
    refine ⟨fun hmem => ?_, ih.sublist (List.filter_sublist.map key)⟩
    obtain ⟨b, hb, heq⟩ := List.mem_map.mp hmem
    have hne : key b ≠ key a := by simpa using (List.mem_filter.mp hb).2
    exact hne heq

/-- Members with different keys all stay. -/
theorem firstOfEach_eq_self (h : (l.map key).Nodup) : firstOfEach key l = l := by
  induction l with
  | nil => rfl
  | cons a l ih =>
    obtain ⟨ha, hl⟩ := List.nodup_cons.mp h
    rw [firstOfEach, ih hl, List.filter_eq_self.mpr]
    intro b hb
    exact decide_eq_true fun heq => ha (heq ▸ List.mem_map_of_mem hb)

/-- Where only equal members share a key, every member is the first of its key. -/
theorem mem_firstOfEach (hinj : ∀ a ∈ l, ∀ b ∈ l, key a = key b → a = b) :
    a ∈ firstOfEach key l ↔ a ∈ l := by
  refine ⟨fun h => (firstOfEach_sublist key l).subset h, fun h => ?_⟩
  induction l with
  | nil => cases h
  | cons b l ih =>
    rw [firstOfEach, List.mem_cons, List.mem_filter]
    by_cases heq : key a = key b
    · exact .inl (hinj a h b List.mem_cons_self heq)
    · refine .inr ⟨ih (fun x hx y hy => hinj x (.tail _ hx) y (.tail _ hy)) ?_, by simpa using heq⟩
      exact (List.mem_cons.mp h).resolve_left fun hab => heq (congrArg key hab)

end

/-! ### Symbols -/

/-- The queries that are asked: with a type name that is not blank, and for members with a name that
is not. -/
structure Filter.Valid (f : Filter) (kind : Option MemberKind) : Prop where
  typeName : Text.isBlankText f.typeName = false
  memberName : kind.isSome → ∃ name, f.memberName = some name ∧ Text.isBlankText name = false

/-- Arguments that pass their check make a query that is asked, for members if they name one. -/
theorem Filter.valid_of_check {typeName home memberName accessor : Option String} {f : Filter}
    {kind : Option MemberKind} (h : Filter.check typeName home memberName accessor = .ok f)
    (hmember : kind.isSome → memberName.isSome) : f.Valid kind := by
  have hok : ∀ {t : String} {m : Option String},
      (AccessorSelection.parse accessor).map (fun a => (⟨t, home, m, a⟩ : Filter)) = .ok f →
        f.typeName = t ∧ f.memberName = m := by
    intro t m hmap
    cases hparse : AccessorSelection.parse accessor with
    | error e =>
      rw [hparse] at hmap
      cases hmap
    | ok a =>
      rw [hparse] at hmap
      cases hmap
      exact ⟨rfl, rfl⟩
  rw [Filter.check.eq_def] at h
  cases typeName with
  | none => cases h
  | some t =>
    cases ht : Text.isBlankText t with
    | true => simp [ht] at h
    | false =>
      cases memberName with
      | none =>
        obtain ⟨rfl, -⟩ := hok (by simpa [ht] using h)
        exact ⟨ht, fun hkind => absurd (hmember hkind) (by simp)⟩
      | some m =>
        cases hm : Text.isBlankText m with
        | true => simp [ht, hm] at h
        | false =>
          obtain ⟨rfl, hname⟩ := hok (by simpa [ht, hm] using h)
          exact ⟨ht, fun _ => ⟨m, hname, hm⟩⟩

/-- Whether a symbol is a type of the name, in the namespace if that is given. -/
def Filter.Names (f : Filter) (s : Symbol) : Prop :=
  s.kind = .type ∧ Text.lower s.name = Text.lower f.typeName ∧
    ∀ home ∈ f.home, home ≠ "" → s.home = home

instance (f : Filter) : DecidablePred f.Names := fun s =>
  inferInstanceAs (Decidable (s.kind = .type ∧ _ ∧ ∀ home ∈ f.home, home ≠ "" → s.home = home))

/-- The types that a query names, project by project. -/
def typesNamed (g : Graph) (f : Filter) : List Symbol :=
  firstOfEach Symbol.id <|
    (g.projects.flatMap fun p => p.declarations.flatMap Symbol.walk).filter fun s => f.Names s

/-- What a member counts as: a property as those of its accessors that are asked for and exist, any
other member as itself. -/
def Filter.countsAs (f : Filter) (kind : MemberKind) (member : Symbol) : List Symbol :=
  match kind with
  | .property =>
    (if f.accessors.takesGetter then member.getter.toList else []) ++
      if f.accessors.takesSetter then member.setter.toList else []
  | _ => [member]

/-- The members of a type that a query names. -/
def Filter.membersOf (f : Filter) (kind : MemberKind) (type : Symbol) : List Symbol :=
  (type.members.filter fun m => m.kind = kind.toSymbolKind ∧ some m.name = f.memberName).flatMap
    (f.countsAs kind)

/-- The symbols that a query names: types, or members of types. -/
def symbolsNamed (g : Graph) (f : Filter) (kind : Option MemberKind) : List Symbol :=
  match kind with
  | none => typesNamed g f
  | some k => firstOfEach Symbol.id ((typesNamed g f).flatMap (f.membersOf k))

/-- A query names each id once. -/
theorem nodup_symbolsNamed (g : Graph) (f : Filter) (kind : Option MemberKind) :
    ((symbolsNamed g f kind).map Symbol.id).Nodup := by
  cases kind <;> exact nodup_map_firstOfEach _ _

/-! ### Rows -/

/-- A symbol with a place where it is referred to. -/
abbrev Hit := Symbol × Location

/-- What tells one hit from another. -/
def Hit.key (h : Hit) : RowKey := (h.1.id, h.2.path, h.2.line)

/-- The row of a hit. -/
def Hit.row (h : Hit) : Row := ⟨h.1.displayName, h.2.path, h.2.line⟩

/-- The places in source text where symbols are referred to. -/
def hits (find : String → List Location) (symbols : List Symbol) : List Hit :=
  symbols.flatMap fun s => ((find s.id).filter fun l => l.inSource).map fun l => (s, l)

/-- The answer to a query: a row for each hit of a symbol that it names, in ascending order. -/
def reference (find : String → List Location) (g : Graph) (f : Filter)
    (kind : Option MemberKind) : List Row :=
  ((firstOfEach Hit.key (hits find (symbolsNamed g f kind))).map Hit.row).insertionSort
    fun a b => a.order ≤ b.order

section

variable {find find' : String → List Location} {symbols : List Symbol} {g : Graph} {f : Filter}
  {kind : Option MemberKind}

theorem mem_hits {h : Hit} :
    h ∈ hits find symbols ↔ h.1 ∈ symbols ∧ h.2 ∈ find h.1.id ∧ h.2.inSource := by
  obtain ⟨s, l⟩ := h
  simp only [hits, List.mem_flatMap, List.mem_map, List.mem_filter, Prod.mk.injEq]
  constructor
  · rintro ⟨s', hs', l', ⟨hl', hsource⟩, rfl, rfl⟩
    exact ⟨hs', hl', hsource⟩
  · rintro ⟨hs, hl, hsource⟩
    exact ⟨s, hs, l, ⟨hl, hsource⟩, rfl, rfl⟩

/-- Among the hits of symbols with different ids only equal ones share a key. -/
theorem eq_of_key_eq (hids : (symbols.map Symbol.id).Nodup) {h h' : Hit}
    (hh : h ∈ hits find symbols) (hh' : h' ∈ hits find symbols) (hkey : h.key = h'.key) :
    h = h' := by
  obtain ⟨s, l⟩ := h
  obtain ⟨s', l'⟩ := h'
  obtain ⟨hs, -, hsource⟩ := mem_hits.mp hh
  obtain ⟨hs', -, hsource'⟩ := mem_hits.mp hh'
  obtain ⟨hid, hpath, hline⟩ : s.id = s'.id ∧ l.path = l'.path ∧ l.line = l'.line := by
    simpa [Hit.key] using hkey
  have hsymbol : s = s' := List.inj_on_of_nodup_map hids hs hs' hid
  have hlocation : l = l' := by
    cases l
    cases l'
    simp_all
  rw [hsymbol, hlocation]

/-- **The places in source text decide**: the answer is the same whatever the order and the number
of times in which they come, and whatever else comes with them. -/
theorem reference_congr
    (h : ∀ id l, l.inSource → (l ∈ find id ↔ l ∈ find' id)) :
    reference find g f kind = reference find' g f kind := by
  have hids := nodup_symbolsNamed g f kind
  have hnodup : ∀ find : String → List Location,
      (firstOfEach Hit.key (hits find (symbolsNamed g f kind))).Nodup := fun find =>
    (nodup_map_firstOfEach Hit.key _).of_map
  have hperm : (firstOfEach Hit.key (hits find (symbolsNamed g f kind))).Perm
      (firstOfEach Hit.key (hits find' (symbolsNamed g f kind))) := by
    rw [List.perm_ext_iff_of_nodup (hnodup find) (hnodup find')]
    intro hit
    rw [mem_firstOfEach fun a ha b hb => eq_of_key_eq hids ha hb,
      mem_firstOfEach fun a ha b hb => eq_of_key_eq hids ha hb, mem_hits, mem_hits]
    exact and_congr_right fun _ => and_congr_left (h hit.1.id hit.2)
  exact Row.insertionSort_eq_of_perm (hperm.map Hit.row)

end

end Query

end Concordance
