import Concordance.Binding.Codebase
import Mathlib.Data.List.Nodup
import Mathlib.Logic.Function.Iterate
import Mathlib.Logic.Relation
import Mathlib.Tactic.Tauto

/-!
# Members are searched depth first

A member of a class is looked for with a pile of classes to come: the one on top is taken off, its
bases are put on in reverse, and a class is marked when it is taken off, not when it is put on. So
the same class may lie on the pile several times before it is looked at, and classes may inherit
from each other in circles.

What is searched is nevertheless the recursive order: a class, then everything that can be reached
from its first base, then from its second one, and so on, leaving out what has been looked at. That
order is written down here as a relation that says nothing of a pile. Every list of classes has one
such order, which holds each class that can be reached once, and the search finds the first class
in it that declares a member of the name.

## Main definitions

* `Codebase.Visits`: the recursive order
* `Codebase.Inherits`: one class is reached from another by going to bases
* `Codebase.searchTurn`: one turn of the loop around the pile

## Main results

* `Codebase.Visits.searchMember`: the search goes through the recursive order
* `Codebase.exists_visits`, `Codebase.Visits.unique`: there is one such order
* `Codebase.Visits.mem_iff`: it holds what can be reached
* `Codebase.iterate_searchTurn`: the loop ends, with what the search finds
* `Codebase.findMember?_first_in_preorder`: all of this about the members of a class
-/

namespace Concordance.Binding.Codebase

variable {c : Codebase} {name : String}

/-! ### The recursive order -/

/-- The classes that are visited from some classes on, each one in front of what is visited from its
bases, and all of that in front of what is visited from its neighbours. What is in `before` has been
visited already, the last one first, and is not visited again. -/
inductive Visits (c : Codebase) : (before classes order : List ClassId) → Prop
  | done (before : List ClassId) : Visits c before [] []
  | again {before rest order : List ClassId} {k : ClassId} (hk : k ∈ before)
    (beside : Visits c before rest order) : Visits c before (k :: rest) order
  | first {before rest below beside : List ClassId} {k : ClassId} (hk : k ∉ before)
    (hbelow : Visits c (k :: before) (c.basesOf k) below)
    (hbeside : Visits c (below.reverse ++ k :: before) rest beside) :
    Visits c before (k :: rest) (k :: (below ++ beside))

/-- What a class that is looked at contributes to a search. -/
def declared? (c : Codebase) (name : String) (k : ClassId) : Option (Symbol × ClassId) :=
  (c.ownMember? name k).map fun s => (s, k)

/-- A search that comes to some classes looks through what is visited from them, in that order, and
goes on with the rest of the pile if it finds nothing. -/
theorem Visits.searchMember {before classes order : List ClassId}
    (h : c.Visits before classes order) (stack : List ClassId) :
    c.searchMember name before (classes ++ stack) =
      (order.findSome? (c.declared? name)).or
        (c.searchMember name (order.reverse ++ before) stack) := by
  induction h generalizing stack with
  | done before => rfl
  | again hk _ ih => rw [List.cons_append, Codebase.searchMember, if_pos hk, ih]
  | @first before rest below beside k hk _ _ ihbelow ihbeside =>
    rw [List.cons_append, Codebase.searchMember, if_neg hk, List.findSome?_cons, declared?]
    cases hown : c.ownMember? name k with
    | some s => rfl
    | none =>
      have hpile : (k :: (below ++ beside)).reverse ++ before =
          beside.reverse ++ (below.reverse ++ k :: before) := by simp
      rw [Option.map_none, List.findSome?_append, hpile, Option.or_assoc, ← ihbeside, ← ihbelow]

/-! ### There is one order -/

/-- The more has been visited, the fewer bases are left. -/
theorem remaining_le {visited visited' : List ClassId} (h : visited ⊆ visited') :
    c.remaining visited' ≤ c.remaining visited := by
  unfold remaining
  induction c.bases with
  | nil => exact Nat.le_refl _
  | cons e rest ih =>
    rw [List.flatMap_cons, List.flatMap_cons, List.length_append, List.length_append]
    refine Nat.add_le_add ?_ ih
    by_cases he : e.1 ∈ visited
    · simp only [if_pos he, if_pos (h he), Nat.le_refl]
    · rw [if_neg he]
      split
      · exact Nat.zero_le _
      · exact Nat.le_refl _

/-- From any classes on there is an order. The bases that are left bound the depth, since a class
that is entered takes its own bases with it. -/
theorem exists_visits (c : Codebase) (before classes : List ClassId) :
    ∃ order, c.Visits before classes order := by
  induction hsize : c.remaining before + classes.length using Nat.strongRecOn
    generalizing before classes with
  | _ size ih =>
    cases classes with
    | nil => exact ⟨[], .done before⟩
    | cons k rest =>
      rw [List.length_cons] at hsize
      by_cases hk : k ∈ before
      · obtain ⟨order, horder⟩ := ih _ (by omega) before rest rfl
        exact ⟨order, .again hk horder⟩
      · have hfewer := c.remaining_cons_add_le hk
        obtain ⟨below, hbelow⟩ := ih _ (by omega) (k :: before) (c.basesOf k) rfl
        have hmore : c.remaining (below.reverse ++ k :: before) ≤ c.remaining before :=
          remaining_le fun x hx => List.mem_append_right _ (List.mem_cons_of_mem k hx)
        obtain ⟨beside, hbeside⟩ := ih _ (by omega) (below.reverse ++ k :: before) rest rfl
        exact ⟨_, .first hk hbelow hbeside⟩

theorem Visits.unique {before classes order order' : List ClassId}
    (h : c.Visits before classes order) (h' : c.Visits before classes order') : order = order' := by
  induction h generalizing order' with
  | done =>
    cases h'
    rfl
  | again hk _ ih =>
    cases h' with
    | again _ hrest => exact ih hrest
    | first hk' => exact absurd hk hk'
  | first hk _ _ ihbelow ihbeside =>
    cases h' with
    | again hk' => exact absurd hk' hk
    | first _ hbelow hbeside =>
      obtain rfl := ihbelow hbelow
      obtain rfl := ihbeside hbeside
      rfl

/-! ### What is visited -/

/-- One class is reached from another by going to a base, any number of times. -/
abbrev Inherits (c : Codebase) : ClassId → ClassId → Prop :=
  Relation.ReflTransGen fun k base => base ∈ c.basesOf k

theorem Visits.notMem {before classes order : List ClassId} (h : c.Visits before classes order) :
    ∀ k ∈ order, k ∉ before := by
  induction h with
  | done => exact nofun
  | again _ _ ih => exact ih
  | first hk _ _ ihbelow ihbeside =>
    intro x hx
    rw [List.mem_cons, List.mem_append] at hx
    obtain rfl | hx | hx := hx
    · exact hk
    · exact fun hmem => ihbelow x hx (List.mem_cons_of_mem _ hmem)
    · exact fun hmem => ihbeside x hx (List.mem_append_right _ (List.mem_cons_of_mem _ hmem))

theorem Visits.nodup {before classes order : List ClassId} (h : c.Visits before classes order) :
    order.Nodup := by
  induction h with
  | done => exact List.nodup_nil
  | again _ _ ih => exact ih
  | first _ hbelow hbeside ihbelow ihbeside =>
    refine List.nodup_cons.mpr ⟨fun hmem => ?_, ihbelow.append ihbeside fun x hx hx' => ?_⟩
    · rw [List.mem_append] at hmem
      obtain hmem | hmem := hmem
      · exact hbelow.notMem _ hmem List.mem_cons_self
      · exact hbeside.notMem _ hmem (List.mem_append_right _ List.mem_cons_self)
    · exact hbeside.notMem x hx' (List.mem_append_left _ (List.mem_reverse.mpr hx))

theorem Visits.exists_inherits {before classes order : List ClassId}
    (h : c.Visits before classes order) : ∀ x ∈ order, ∃ k ∈ classes, c.Inherits k x := by
  induction h with
  | done => exact nofun
  | again _ _ ih =>
    intro x hx
    obtain ⟨k, hk, hreach⟩ := ih x hx
    exact ⟨k, List.mem_cons_of_mem _ hk, hreach⟩
  | @first _ _ _ _ k _ _ _ ihbelow ihbeside =>
    intro x hx
    rw [List.mem_cons, List.mem_append] at hx
    obtain rfl | hx | hx := hx
    · exact ⟨x, List.mem_cons_self, .refl⟩
    · obtain ⟨base, hbase, hreach⟩ := ihbelow x hx
      exact ⟨k, List.mem_cons_self, .head hbase hreach⟩
    · obtain ⟨k', hk', hreach⟩ := ihbeside x hx
      exact ⟨k', List.mem_cons_of_mem _ hk', hreach⟩

/-- The classes themselves are visited unless they have been before, and so are the bases of each
one that is visited. -/
theorem Visits.closed {before classes order : List ClassId} (h : c.Visits before classes order) :
    (∀ k ∈ classes, k ∈ order ∨ k ∈ before) ∧
      ∀ k ∈ order, ∀ base ∈ c.basesOf k, base ∈ order ∨ base ∈ before := by
  induction h with
  | done => exact ⟨nofun, nofun⟩
  | again hk _ ih =>
    refine ⟨fun x hx => ?_, ih.2⟩
    rw [List.mem_cons] at hx
    obtain rfl | hx := hx
    · exact .inr hk
    · exact ih.1 x hx
  | @first before rest below beside k _ _ _ ihbelow ihbeside =>
    have hbelow (x : ClassId) (hx : x ∈ below ∨ x ∈ k :: before) :
        x ∈ k :: (below ++ beside) ∨ x ∈ before := by
      simp only [List.mem_cons, List.mem_append] at hx ⊢
      tauto
    have hbeside (x : ClassId) (hx : x ∈ beside ∨ x ∈ below.reverse ++ k :: before) :
        x ∈ k :: (below ++ beside) ∨ x ∈ before := by
      simp only [List.mem_cons, List.mem_append, List.mem_reverse] at hx ⊢
      tauto
    refine ⟨fun x hx => ?_, fun x hx base hbase => ?_⟩
    · rw [List.mem_cons] at hx
      obtain rfl | hx := hx
      · exact .inl List.mem_cons_self
      · exact hbeside x (ihbeside.1 x hx)
    · rw [List.mem_cons, List.mem_append] at hx
      obtain rfl | hx | hx := hx
      · exact hbelow base (ihbelow.1 base hbase)
      · exact hbelow base (ihbelow.2 x hx base hbase)
      · exact hbeside base (ihbeside.2 x hx base hbase)

/-- An order that starts afresh holds what can be reached. -/
theorem Visits.mem_iff {classes order : List ClassId} (h : c.Visits [] classes order)
    {x : ClassId} : x ∈ order ↔ ∃ k ∈ classes, c.Inherits k x := by
  refine ⟨h.exists_inherits x, ?_⟩
  rintro ⟨k, hk, hreach⟩
  induction hreach with
  | refl => exact (h.closed.1 k hk).resolve_right List.not_mem_nil
  | tail _ hbase ih => exact (h.closed.2 _ ih _ hbase).resolve_right List.not_mem_nil

/-! ### The loop around the pile -/

/-- How far a search has come: it has marked some classes and has a pile of classes to come, the
next one last, or it has ended. -/
inductive Search where
  | going (visited pile : List ClassId)
  | ended (found : Option (Symbol × ClassId))

/-- One turn of the loop: take the class off that lies on top. If it is not marked, mark it, and
unless it declares a member of the name put its bases on, the first one last. -/
def searchTurn (c : Codebase) (name : String) : Search → Search
  | .ended found => .ended found
  | .going visited pile =>
    match pile.getLast? with
    | none => .ended none
    | some k =>
      if k ∈ visited then .going visited pile.dropLast
      else
        match c.ownMember? name k with
        | some s => .ended (some (s, k))
        | none => .going (k :: visited) (pile.dropLast ++ (c.basesOf k).reverse)

theorem iterate_searchTurn_ended (found : Option (Symbol × ClassId)) (n : Nat) :
    (c.searchTurn name)^[n] (.ended found) = .ended found :=
  Function.iterate_fixed rfl n

/-- **The loop ends**, after no more turns than there are classes on the pile and bases left, and
with what the search finds. -/
theorem iterate_searchTurn (visited stack : List ClassId) {n : Nat}
    (hn : c.remaining visited + stack.length < n) :
    (c.searchTurn name)^[n] (.going visited stack.reverse) =
      .ended (c.searchMember name visited stack) := by
  obtain ⟨n, rfl⟩ := Nat.exists_eq_succ_of_ne_zero (Nat.ne_zero_of_lt hn)
  induction visited, stack using searchMember.induct c name generalizing n with
  | case1 visited =>
    rw [searchMember, Function.iterate_succ_apply]
    exact iterate_searchTurn_ended none n
  | case2 visited k stack hk ih =>
    have hturn : c.searchTurn name (.going visited (k :: stack).reverse) =
        .going visited stack.reverse := by simp [searchTurn, hk]
    rw [List.length_cons] at hn
    obtain ⟨m, rfl⟩ := Nat.exists_eq_succ_of_ne_zero (n := n) (by omega)
    rw [searchMember, if_pos hk, Function.iterate_succ_apply, hturn]
    exact ih m (by omega)
  | case3 visited k stack hk s hs =>
    have hturn : c.searchTurn name (.going visited (k :: stack).reverse) =
        .ended (some (s, k)) := by simp [searchTurn, hk, hs]
    rw [searchMember, if_neg hk, hs, Function.iterate_succ_apply, hturn]
    exact iterate_searchTurn_ended _ n
  | case4 visited k stack hk hs ih =>
    have hturn : c.searchTurn name (.going visited (k :: stack).reverse) =
        .going (k :: visited) (c.basesOf k ++ stack).reverse := by simp [searchTurn, hk, hs]
    have hfewer := c.remaining_cons_add_le hk
    rw [List.length_cons] at hn
    obtain ⟨m, rfl⟩ := Nat.exists_eq_succ_of_ne_zero (n := n) (by omega)
    rw [searchMember, if_neg hk, hs, Function.iterate_succ_apply, hturn]
    refine ih m ?_
    rw [List.length_append]
    omega

/-! ### Members of classes -/

/-- **A member is found depth first.** Whatever the classes inherit from, in circles or several
times, the search for a member of a class, or of its bases only, ends; and it finds the first
member of the name in the one recursive order, which holds each class that can be reached once. So
it finds one exactly if some class that can be reached declares one. -/
theorem findMember?_first_in_preorder (c : Codebase) (k : ClassId) (name : String)
    (skipSelf : Bool) :
    let starts := if skipSelf then c.basesOf k else [k]
    (∃ turns, ∀ n, turns ≤ n →
      (c.searchTurn name)^[n] (.going [] starts.reverse) = .ended (c.findMember? k name skipSelf)) ∧
    ((c.findMember? k name skipSelf).isSome ↔
      ∃ start ∈ starts, ∃ owner, c.Inherits start owner ∧ (c.ownMember? name owner).isSome) ∧
    ∃ order, (∀ order', c.Visits [] starts order' ↔ order' = order) ∧ order.Nodup ∧
      (∀ owner, owner ∈ order ↔ ∃ start ∈ starts, c.Inherits start owner) ∧
      c.findMember? k name skipSelf = order.findSome? (c.declared? name) := by
  intro starts
  obtain ⟨order, horder⟩ := c.exists_visits [] starts
  have hfound : c.findMember? k name skipSelf = order.findSome? (c.declared? name) := by
    have hsearch : c.searchMember name [] (starts ++ []) = _ := horder.searchMember []
    rw [List.append_nil, searchMember.eq_1, Option.or_none] at hsearch
    exact hsearch
  refine ⟨⟨c.remaining [] + starts.length + 1, fun n hn => c.iterate_searchTurn [] starts hn⟩, ?_,
    order, fun order' => ⟨fun h => h.unique horder, fun h => h ▸ horder⟩, horder.nodup,
    fun owner => horder.mem_iff, hfound⟩
  rw [hfound, List.findSome?_isSome_iff]
  constructor
  · rintro ⟨owner, hmem, hown⟩
    obtain ⟨start, hstart, hreach⟩ := horder.mem_iff.mp hmem
    exact ⟨start, hstart, owner, hreach, by simpa [declared?] using hown⟩
  · rintro ⟨start, hstart, owner, hreach, hown⟩
    exact ⟨owner, horder.mem_iff.mpr ⟨start, hstart, hreach⟩, by simpa [declared?] using hown⟩

end Concordance.Binding.Codebase
