import Concordance.Syntax.Tree
import Mathlib.Data.List.Basic
import Mathlib.Data.List.Perm.Basic
import Mathlib.Logic.Relation

/-!
# Trees level by level

Going through a tree level by level comes to the same nodes as going through it in its own order,
where a node stands before its parts and these one after the other; but it comes to those that are
nested less deeply first. So what is found first in the one order is found first in the other if
nothing of the kind is less deep.

## Main definitions

* `Node.treeOrder`: the nodes of a tree in its order, with how deep they are

## Main results

* `Node.mem_breadthFirst_iff`: what is come to level by level
* `Node.levels_eq`: level by level is by depth
* `Node.head?_flatMap_levels`: where both orders find the same first
-/

namespace Concordance.Syntax.Node

/-! ### What is come to -/

section

variable {n p : Node} {nodes : List Node}

theorem height_le_heightAll (h : n ∈ nodes) : n.height ≤ heightAll nodes := by
  induction nodes with
  | nil => cases h
  | cons m rest ih =>
    rw [heightAll]
    rcases List.mem_cons.mp h with rfl | h
    · exact Nat.le_max_left _ _
    · exact Nat.le_trans (ih h) (Nat.le_max_right _ _)

theorem heightAll_append (nodes nodes' : List Node) :
    heightAll (nodes ++ nodes') = max (heightAll nodes) (heightAll nodes') := by
  induction nodes with
  | nil => simp [heightAll]
  | cons m rest ih => simp [heightAll, ih, Nat.max_assoc]

theorem heightAll_toList (o : Option Node) : heightAll o.toList = heightOption o := by
  cases o <;> simp [heightAll, heightOption]

theorem heightAll_le {k : Nat} (h : ∀ m ∈ nodes, m.height ≤ k) : heightAll nodes ≤ k := by
  induction nodes with
  | nil => exact Nat.zero_le k
  | cons m rest ih =>
    obtain ⟨hm, hrest⟩ := List.forall_mem_cons.mp h
    exact Nat.max_le.mpr ⟨hm, ih hrest⟩

/-- A node is one level more than its parts. -/
theorem height_eq (n : Node) : n.height = heightAll n.parts + 1 := by
  cases n <;> simp [height, parts, heightAll, heightAll_append, heightAll_toList]

theorem height_lt_of_mem_parts (h : p ∈ n.parts) : p.height < n.height := by
  rw [height_eq n]
  exact Nat.lt_succ_of_le (height_le_heightAll h)

theorem levels_succ (fuel : Nat) (nodes : List Node) :
    levels (fuel + 1) nodes = nodes ++ levels fuel (nodes.flatMap parts) := by
  cases nodes with
  | nil => cases fuel <;> rfl
  | cons n rest => rfl

/-- On the next level nodes are nested less deeply. -/
theorem heightAll_parts_le {k : Nat} (h : heightAll nodes ≤ k + 1) :
    heightAll (nodes.flatMap parts) ≤ k := by
  refine heightAll_le fun q hq => ?_
  obtain ⟨n, hn, hq⟩ := List.mem_flatMap.mp hq
  have := height_lt_of_mem_parts hq
  have := height_le_heightAll hn
  omega

theorem eq_nil_of_heightAll_le_zero (h : heightAll nodes ≤ 0) : nodes = [] := by
  refine List.eq_nil_iff_forall_not_mem.mpr fun n hn => ?_
  have := height_le_heightAll hn
  have := n.height_eq
  omega

/-- What is come to level by level are the nodes themselves, their parts, the parts of these and so
on. -/
theorem mem_levels_iff {fuel : Nat} (hfuel : heightAll nodes ≤ fuel) :
    p ∈ levels fuel nodes ↔ ∃ n ∈ nodes, Relation.ReflTransGen (fun a b => b ∈ a.parts) n p := by
  induction fuel generalizing nodes with
  | zero =>
    rw [eq_nil_of_heightAll_le_zero hfuel]
    simp [levels]
  | succ fuel ih =>
    rw [levels_succ, List.mem_append, ih (heightAll_parts_le hfuel)]
    constructor
    · rintro (hp | ⟨q, hq, hp⟩)
      · exact ⟨p, hp, .refl⟩
      · obtain ⟨n, hn, hq⟩ := List.mem_flatMap.mp hq
        exact ⟨n, hn, .head hq hp⟩
    · rintro ⟨n, hn, hp⟩
      rcases hp.cases_head with rfl | ⟨q, hq, hp⟩
      · exact .inl hn
      · exact .inr ⟨q, List.mem_flatMap.mpr ⟨n, hn, hq⟩, hp⟩

theorem mem_breadthFirst_iff :
    p ∈ n.breadthFirst ↔ Relation.ReflTransGen (fun a b => b ∈ a.parts) n p := by
  rw [breadthFirst, breadthFirstAll, mem_levels_iff (Nat.le_refl _)]
  simp

/-- What is come to in a part is come to in the whole. -/
theorem breadthFirst_subset {q : Node} (hp : p ∈ n.breadthFirst) (hq : q ∈ p.parts) :
    q.breadthFirst ⊆ n.breadthFirst := fun _ ha =>
  mem_breadthFirst_iff.mpr
    (((mem_breadthFirst_iff.mp hp).tail hq).trans (mem_breadthFirst_iff.mp ha))

theorem breadthFirst_eq (n : Node) :
    n.breadthFirst = n :: levels (heightAll n.parts) n.parts := by
  have hheight : heightAll [n] = heightAll n.parts + 1 := by
    rw [heightAll, heightAll, Nat.max_zero, height_eq]
  rw [breadthFirst, breadthFirstAll, hheight, levels_succ, List.flatMap_singleton]
  rfl

/-- Each node is come to as often level by level as in the trees one after the other. -/
theorem levels_perm {fuel : Nat} (hfuel : heightAll nodes ≤ fuel) :
    (levels fuel nodes).Perm (nodes.flatMap breadthFirst) := by
  induction fuel using Nat.strongRecOn generalizing nodes with
  | ind fuel ih =>
    cases fuel with
    | zero =>
      rw [eq_nil_of_heightAll_le_zero hfuel]
      exact .refl _
    | succ fuel =>
      have hone : ∀ n ∈ nodes, (n :: n.parts.flatMap breadthFirst).Perm n.breadthFirst := by
        intro n hn
        have hless : heightAll n.parts < fuel + 1 := by
          have := height_le_heightAll hn
          have := n.height_eq
          omega
        rw [breadthFirst_eq]
        exact (ih _ hless (Nat.le_refl _)).symm.cons n
      calc levels (fuel + 1) nodes
          = nodes ++ levels fuel (nodes.flatMap parts) := levels_succ fuel nodes
        _ |>.Perm (nodes ++ (nodes.flatMap parts).flatMap breadthFirst) :=
          (ih fuel (Nat.lt_succ_self _) (heightAll_parts_le hfuel)).append_left nodes
        _ |>.Perm (nodes.flatMap fun n => n :: n.parts.flatMap breadthFirst) := by
          rw [List.flatMap_assoc]
          simpa using nodes.map_append_flatMap_perm id fun n => n.parts.flatMap breadthFirst
        _ |>.Perm (nodes.flatMap breadthFirst) := List.Perm.flatMap_left nodes hone

/-- In a tree these are the node itself and what is come to in its parts. -/
theorem breadthFirst_perm (n : Node) :
    n.breadthFirst.Perm (n :: n.parts.flatMap breadthFirst) := by
  rw [breadthFirst_eq]
  exact (levels_perm (Nat.le_refl _)).cons n

theorem breadthFirstAll_perm (nodes : List Node) :
    (breadthFirstAll nodes).Perm (nodes.flatMap breadthFirst) :=
  levels_perm (Nat.le_refl _)

end

/-! ### By depth -/

/-- The nodes of the next `fuel` levels of a tree in the order of the tree, a node before its parts,
each with how deep it is. -/
def treeOrder : (fuel depth : Nat) → Node → List (Nat × Node)
  | 0, _, _ => []
  | fuel + 1, depth, n => (depth, n) :: n.parts.flatMap (treeOrder fuel (depth + 1))

theorem treeOrder_succ_depth (fuel depth : Nat) (n : Node) :
    treeOrder fuel (depth + 1) n = (treeOrder fuel depth n).map fun e => (e.1 + 1, e.2) := by
  induction fuel generalizing depth n with
  | zero => rfl
  | succ fuel ih =>
    rw [treeOrder, treeOrder, List.map_cons, List.map_flatMap]
    exact congrArg _ (List.flatMap_congr fun p _ => ih (depth + 1) p)

/-- The nodes at one depth, in their order. -/
def atDepth (d : Nat) (l : List (Nat × Node)) : List Node :=
  (l.filter fun e => e.1 = d).map Prod.snd

theorem atDepth_append (d : Nat) (l l' : List (Nat × Node)) :
    atDepth d (l ++ l') = atDepth d l ++ atDepth d l' := by
  rw [atDepth, List.filter_append, List.map_append]
  rfl

theorem atDepth_flatMap {α : Type} (d : Nat) (l : List α) (f : α → List (Nat × Node)) :
    atDepth d (l.flatMap f) = l.flatMap fun a => atDepth d (f a) := by
  induction l with
  | nil => rfl
  | cons a rest ih => rw [List.flatMap_cons, atDepth_append, ih, List.flatMap_cons]

/-- A level lower down is one further on. -/
theorem atDepth_map_succ (d : Nat) (l : List (Nat × Node)) :
    atDepth (d + 1) (l.map fun e => (e.1 + 1, e.2)) = atDepth d l := by
  induction l with
  | nil => rfl
  | cons e rest ih =>
    rw [← List.singleton_append, List.map_append, atDepth_append, ih, ← List.singleton_append,
      atDepth_append]
    congr 1
    by_cases h : e.1 = d <;> simp [atDepth, h]

theorem atDepth_zero_map_succ (l : List (Nat × Node)) :
    atDepth 0 (l.map fun e => (e.1 + 1, e.2)) = [] := by
  simp [atDepth, List.filter_map, Function.comp_def]

/-- Going through trees level by level is going through them by depth. -/
theorem levels_eq (fuel : Nat) (nodes : List Node) :
    levels fuel nodes =
      (List.range fuel).flatMap fun d => atDepth d (nodes.flatMap (treeOrder fuel 0)) := by
  induction fuel generalizing nodes with
  | zero => rfl
  | succ fuel ih =>
    have htree (n : Node) : treeOrder (fuel + 1) 0 n =
        [(0, n)] ++ (n.parts.flatMap (treeOrder fuel 0)).map fun e => (e.1 + 1, e.2) := by
      rw [treeOrder, List.map_flatMap]
      exact congrArg _ (List.flatMap_congr fun p _ => treeOrder_succ_depth fuel 0 p)
    have hself (d : Nat) (n : Node) : atDepth d [(0, n)] = if d = 0 then [n] else [] := by
      by_cases h : d = 0
      · subst h
        rfl
      · simp [atDepth, h, Ne.symm h]
    rw [levels_succ, ih, List.range_succ_eq_map, List.flatMap_cons, List.flatMap_map]
    simp only [htree, atDepth_flatMap, atDepth_append, atDepth_map_succ, atDepth_zero_map_succ,
      hself, List.append_nil, Nat.succ_ne_zero, if_false, if_true, List.nil_append,
      List.flatMap_assoc, List.flatMap_singleton']

theorem depth_lt_of_mem_treeOrder {fuel depth : Nat} {n : Node} {e : Nat × Node}
    (h : e ∈ treeOrder fuel depth n) : e.1 < depth + fuel := by
  induction fuel generalizing depth n with
  | zero => cases h
  | succ fuel ih =>
    rcases List.mem_cons.mp h with rfl | h
    · show depth < depth + (fuel + 1)
      omega
    · obtain ⟨p, -, h⟩ := List.mem_flatMap.mp h
      have := ih h
      omega

section

variable {β : Type} {g : Node → List β}

/-- What comes first is what comes first from the first of several that gives something. -/
theorem head?_flatMap_of_first {α : Type} {f : α → List β} {before after : List α} {a : α}
    (hbefore : ∀ b ∈ before, f b = []) (ha : f a ≠ []) :
    ((before ++ a :: after).flatMap f).head? = (f a).head? := by
  rw [List.flatMap_append, List.flatMap_eq_nil_iff.mpr hbefore, List.nil_append, List.flatMap_cons,
    List.head?_append_of_ne_nil _ ha]

/-- Level by level the first node that gives something is the first one in the order of the tree, if
none that gives something is less deep. -/
theorem head?_flatMap_levels {fuel d : Nat} {t a : Node} {before after : List (Nat × Node)}
    (ht : treeOrder fuel 0 t = before ++ (d, a) :: after) (hbefore : ∀ e ∈ before, g e.2 = [])
    (ha : g a ≠ []) (hafter : ∀ e ∈ after, g e.2 ≠ [] → d ≤ e.1) :
    ((levels fuel [t]).flatMap g).head? = (g a).head? := by
  have hd : d ∈ List.range fuel := by
    have hmem : (d, a) ∈ treeOrder fuel 0 t := by simp [ht]
    have := depth_lt_of_mem_treeOrder hmem
    exact List.mem_range.mpr (by omega)
  obtain ⟨lower, higher, hrange⟩ := List.append_of_mem hd
  have hlower : ∀ j ∈ lower, j < d := by
    have hsorted := hrange ▸ List.pairwise_lt_range (n := fuel)
    exact fun j hj => (List.pairwise_append.mp hsorted).2.2 j hj d List.mem_cons_self
  have hnone : ∀ j ∈ lower, (atDepth j (before ++ (d, a) :: after)).flatMap g = [] := by
    intro j hj
    refine List.flatMap_eq_nil_iff.mpr fun n hn => ?_
    obtain ⟨e, he, rfl⟩ := List.mem_map.mp hn
    obtain ⟨he, hdepth⟩ := List.mem_filter.mp he
    have hdepth : e.1 = j := of_decide_eq_true hdepth
    have hj := hlower j hj
    rw [List.mem_append, List.mem_cons] at he
    rcases he with he | rfl | he
    · exact hbefore e he
    · exact absurd hdepth (Nat.ne_of_gt hj)
    · by_contra hgives
      have := hafter e he hgives
      omega
  have hsplit : (atDepth d (before ++ (d, a) :: after)).flatMap g =
      (atDepth d before ++ a :: atDepth d after).flatMap g := by
    rw [atDepth_append, ← List.singleton_append, atDepth_append]
    simp [atDepth]
  have hfirst : ((atDepth d before ++ a :: atDepth d after).flatMap g).head? = (g a).head? := by
    refine head?_flatMap_of_first (fun n hn => ?_) ha
    obtain ⟨e, he, rfl⟩ := List.mem_map.mp hn
    exact hbefore e (List.mem_filter.mp he).1
  have hne : (atDepth d (before ++ (d, a) :: after)).flatMap g ≠ [] := by
    rw [hsplit]
    intro hnil
    rw [hnil] at hfirst
    exact ha (List.head?_eq_none_iff.mp hfirst.symm)
  rw [levels_eq, List.flatMap_singleton, ht, List.flatMap_assoc, hrange,
    head?_flatMap_of_first hnone hne, hsplit, hfirst]

end

/-- The nodes of a tree in its order, each with how deep it is. -/
def inOrder (n : Node) : List (Nat × Node) := n.treeOrder (heightAll [n]) 0

end Concordance.Syntax.Node
