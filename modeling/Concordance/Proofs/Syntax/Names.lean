import Concordance.Proofs.Syntax.Lexing

/-!
# Names in trees

A name in a tree comes from the source: it is that of a word token. Where the tree is part of a
formatted text, it is a word of the text of a field, which has tokens of its own; there it is only
said how the name is spelled. Besides, the parts of a node are of the kinds that they should be: a
comprehension always goes through something, and functions have parameters.

## Main definitions

* `IsWordOf`: a name is a word of some tokens, or spelled as words are
* `Node.ownNames`: the names of a node
* `Node.isFormed`: the parts of a node are of the kinds that they should be
* `Node.Written`: a tree all of whose names are such, and all of whose nodes are formed like that

## Main results

* `Node.Written.mono`, `Node.Written.of_spelled`: from some tokens to others
* `Expressions.written_asTarget?`: a target has the names of the expression it is made from
-/

namespace Concordance.Syntax

/-! ### Names in trees -/

/-- A name is a word among some tokens, or spelled as words are. -/
def IsWordOf (T : List Token) (name : String) : Prop :=
  (∃ t ∈ T, t.lexeme = .word name) ∨ IsWord name

@[grind →] theorem IsWordOf.mono {T T' : List Token} {name : String} (h : IsWordOf T name)
    (hT : T <:+ T') : IsWordOf T' name :=
  h.imp_left fun ⟨t, ht, hword⟩ => ⟨t, hT.subset ht, hword⟩

@[grind →] theorem isWordOf_of_mem {T : List Token} {t : Token} {name : String} (ht : t ∈ T)
    (h : t.lexeme = .word name) : IsWordOf T name :=
  .inl ⟨t, ht, h⟩

/-- Where words are spelled as they should be, the name is known to be spelled like that. -/
theorem IsWordOf.isWord {T : List Token} (hT : ∀ t ∈ T, t.Spelled) {name : String}
    (h : IsWordOf T name) : IsWord name := by
  rcases h with ⟨t, ht, hword⟩ | h
  · exact hT t ht name hword
  · exact h

namespace Node

/-- The names that a node has itself: of a name, a member, a function or a class. -/
def ownNames : Node → List String
  | .name _ id _ => [id]
  | .member _ _ attr _ => [attr]
  | .classDef _ id .. => [id]
  | .functionDef _ _ id .. => [id]
  | _ => []

/-- A comprehension has a clause. -/
def isFilled : Node → Bool
  | .comprehension _ _ _ [] => false
  | _ => true

/-- A clause of a comprehension. -/
def isGenerator : Node → Bool
  | .generator .. => true
  | _ => false

/-- A parameter, which may have a hint or not. -/
def isParameter (hinted : Bool) : Node → Bool
  | .parameter _ _ hint => hinted || hint.isNone
  | _ => false

/-- The parameters of a function, which may have hints or not. -/
def isParameters (hinted : Bool) : Node → Bool
  | .parameters positionalOnly positional rest keywordOnly _ keywordRest _ =>
    positionalOnly.all (isParameter hinted) && positional.all (isParameter hinted) &&
      rest.all (isParameter hinted) && keywordOnly.all (isParameter hinted) &&
        keywordRest.all (isParameter hinted)
  | _ => false

/-- The parts of a node are of the kinds that they should be: a comprehension goes through clauses,
and functions have parameters, without hints in lambda expressions. -/
def isFormed : Node → Bool
  | .comprehension _ _ _ generators => !generators.isEmpty && generators.all isGenerator
  | .lambda _ ps _ => ps.isParameters false
  | .functionDef _ _ _ ps .. => ps.isParameters true
  | _ => true

theorem isFilled_of_isFormed {n : Node} (h : n.isFormed) : n.isFilled := by
  cases n with
  | comprehension _ _ _ generators =>
    cases generators with
    | nil => cases h
    | cons => rfl
  | _ => rfl

/-- All names in a tree are words of some tokens, or spelled as words are, and all nodes are formed
as they should be. -/
inductive Written (T : List Token) : Node → Prop
  | intro {n : Node} (own : ∀ name ∈ n.ownNames, IsWordOf T name) (formed : n.isFormed)
      (within : ∀ p ∈ n.parts, Written T p) : Written T n

variable {T T' : List Token}

@[grind →] theorem Written.mono {n : Node} (h : n.Written T) (hT : T <:+ T') : n.Written T' := by
  induction h with
  | intro own formed _ ih => exact .intro (fun name hname => (own name hname).mono hT) formed ih

/-- Where words are spelled as they should be, the tokens do not matter. -/
theorem Written.of_spelled {n : Node} (h : n.Written T) (hT : ∀ t ∈ T, t.Spelled) :
    n.Written T' := by
  induction h with
  | intro own formed _ ih =>
    exact .intro (fun name hname => .inr ((own name hname).isWord hT)) formed ih

theorem written_iff {n : Node} : n.Written T ↔
    (∀ name ∈ n.ownNames, IsWordOf T name) ∧ n.isFormed ∧ ∀ p ∈ n.parts, p.Written T := by
  refine ⟨fun h => ?_, fun h => .intro h.1 h.2.1 h.2.2⟩
  cases h with
  | intro own formed within => exact ⟨own, formed, within⟩

theorem Written.of_mem {n p : Node} (h : n.Written T) (hp : p ∈ n.parts) : p.Written T :=
  (written_iff.mp h).2.2 p hp

/-- A node that has the names and parts of another one. -/
theorem Written.congr {n n' : Node} (h : n.Written T)
    (hown : n'.ownNames = n.ownNames) (hformed : n'.isFormed = n.isFormed)
    (hparts : n'.parts = n.parts) : n'.Written T := by
  rw [written_iff] at h ⊢
  rwa [hown, hformed, hparts]

/-- A node without a name of its own. -/
theorem written_of_parts {n : Node} (hown : n.ownNames = []) (hformed : n.isFormed)
    (h : ∀ p ∈ n.parts, p.Written T) : n.Written T :=
  .intro (by simp [hown]) hformed h

end Node

namespace Expressions

open Reader Node

/-! ### Targets -/

mutual

/-- A target has the names of the expression that it is made from. -/
theorem written_asTarget? {T : List Token} {u : Use} :
    ∀ (n : Node) {t : Node}, n.Written T → asTarget? u n = some t → t.Written T
  | .name p id use, _, h, rfl => h.congr rfl rfl rfl
  | .member p v attr use, _, h, rfl => h.congr rfl rfl rfl
  | .subscript p v s use, _, h, rfl => h.congr rfl rfl rfl
  | .tuple p items use, _, h, ht => by
    obtain ⟨ts, hts, rfl⟩ := Option.map_eq_some_iff.mp ht
    exact written_of_parts rfl rfl (written_asTargets? items (fun _ => h.of_mem) hts)
  | .plain p .list items, _, h, ht => by
    obtain ⟨ts, hts, rfl⟩ := Option.map_eq_some_iff.mp ht
    exact written_of_parts rfl rfl (written_asTargets? items (fun _ => h.of_mem) hts)

theorem written_asTargets? {T : List Token} {u : Use} :
    ∀ (ns : List Node) {ts : List Node}, (∀ n ∈ ns, n.Written T) → asTargets? u ns = some ts →
      ∀ t ∈ ts, t.Written T
  | [], _, _, rfl => List.forall_mem_nil _
  | n :: rest, ts, h, hts => by
    obtain ⟨hn, hrest⟩ := List.forall_mem_cons.mp h
    unfold asTargets? at hts
    split at hts
    · rename_i hnil
      cases hnil
    · rename_i v rest' heq
      obtain ⟨rfl, rfl⟩ := List.cons.inj heq
      split at hts
      · split at hts
        · rename_i hv hts'
          cases hts
          refine List.forall_mem_cons.mpr ⟨?_, written_asTargets? rest hrest hts'⟩
          exact written_of_parts rfl rfl (List.forall_mem_singleton.mpr
            (written_asTarget? v (hn.of_mem List.mem_cons_self) hv))
        · cases hts
      · cases hts
    · rename_i heq
      obtain ⟨rfl, rfl⟩ := List.cons.inj heq
      split at hts
      · rename_i ht hts'
        cases hts
        exact List.forall_mem_cons.mpr
          ⟨written_asTarget? n hn ht, written_asTargets? rest hrest hts'⟩
      · cases hts

end

theorem written_asStarTarget? {T : List Token} {n t : Node} (h : n.Written T)
    (ht : asStarTarget? n = some t) : t.Written T := by
  unfold asStarTarget? at ht
  split at ht
  · rename_i v
    obtain ⟨v', hv, rfl⟩ := Option.map_eq_some_iff.mp ht
    exact written_of_parts rfl rfl (List.forall_mem_singleton.mpr
      (written_asTarget? v (h.of_mem List.mem_cons_self) hv))
  · exact written_asTarget? n h ht

end Expressions

end Concordance.Syntax
