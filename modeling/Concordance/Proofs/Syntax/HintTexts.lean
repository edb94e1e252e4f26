import Concordance.Proofs.Syntax.Lexing

/-!
# Texts of hints are shorter than their source

A hint may be a text that is read as a source of its own, and that source may be such a text again.
What is read grows shorter each time: a text token has two quotes around it, escapes never make a
text longer, and texts next to each other have quotes each. So every text that stands in an
expression for a hint fits, with two quotes, into the tokens that the expression was read from.

## Main definitions

* `Node.hintTexts`, `Node.Light`: the texts of a tree that are read as hints, and whether they fit
* `Expressions.quotedRoom`: what texts next to each other are written with

## Main results

* `length_unescapeFrom?_le`: escapes make no text longer
* `Expressions.length_text_le`: texts next to each other leave two characters for quotes
-/

namespace Concordance.Syntax

/-! ### Texts of hints -/

namespace Node

mutual

/-- The texts of a tree that are read as hints if the tree is one. -/
def hintTexts : Node → List String
  | .constant _ (.string s) => [s]
  | .binary _ _ left right => left.hintTexts ++ right.hintTexts
  | .subscript _ _ slice _ => slice.hintTexts
  | .tuple _ items _ => hintTextsAll items
  | _ => []

/-- The texts of trees that are read as hints. -/
def hintTextsAll : List Node → List String
  | [] => []
  | n :: rest => n.hintTexts ++ hintTextsAll rest

end

theorem mem_hintTextsAll {s : String} {nodes : List Node} :
    s ∈ hintTextsAll nodes ↔ ∃ n ∈ nodes, s ∈ n.hintTexts := by
  induction nodes with
  | nil => simp [hintTextsAll]
  | cons n rest ih => simp [hintTextsAll, ih]

/-- The texts of a tree that are read as hints fit into some tokens, with their quotes. -/
def Light (T : List Token) (n : Node) : Prop := ∀ s ∈ n.hintTexts, s.length + 2 ≤ room T

variable {T T' : List Token}

theorem Light.mono {n : Node} (h : n.Light T) (hT : T <:+ T') : n.Light T' :=
  fun s hs => (h s hs).trans (room_le_of_suffix hT)

theorem light_tuple (p : Place) (items : List Node) (u : Use) :
    (tuple p items u).Light T ↔ ∀ n ∈ items, n.Light T := by
  simp only [Light, hintTexts, mem_hintTextsAll]
  exact ⟨fun h n hn s hs => h s ⟨n, hn, hs⟩, fun h s ⟨n, hn, hs⟩ => h n hn s hs⟩

theorem light_binary (p : Place) (op : Operator) (left right : Node) :
    (binary p op left right).Light T ↔ left.Light T ∧ right.Light T := by
  simp [Light, hintTexts, or_imp, forall_and]

theorem light_subscript (p : Place) (value slice : Node) (u : Use) :
    (subscript p value slice u).Light T ↔ slice.Light T := by
  simp [Light, hintTexts]

/-- A text fits if its code points do. One with halves is not read. -/
theorem light_ofPoints (p : Place) {points : List Nat} (h : points.length + 2 ≤ room T) :
    (constant p (.ofPoints points)).Light T := by
  intro s hs
  rw [Literal.ofPoints] at hs
  split at hs
  · rename_i cs hcs
    rw [hintTexts, List.mem_singleton] at hs
    rw [Text.charsOf?_eq_some_iff.mp hcs, List.length_map] at h
    rwa [hs, String.length_ofList]
  · simp [hintTexts] at hs

theorem light_number {t : Token} {v : Literal} (ht : t ∈ T) (hv : t.lexeme = .number v)
    (p : Place) : (constant p v).Light T := by
  intro s hs
  cases v with
  | string s' =>
    have hroom := room_le_of_mem ht
    rw [Token.room, hv] at hroom
    rw [List.mem_singleton.mp hs]
    exact hroom
  | _ => simp [hintTexts] at hs

end Node

/-! ### Escapes -/

theorem length_readHex?_le {count n : Nat} {cs rest : List Char}
    (h : readHex? count cs = some (n, rest)) : rest.length ≤ cs.length := by
  rw [readHex?] at h
  split at h
  · obtain ⟨m, -, hm⟩ := Option.map_eq_some_iff.mp h
    cases hm
    simp
  · cases h

theorem length_readNamed?_le {c : Char} {cs rest : List Char}
    (h : readNamed? cs = some (c, rest)) : rest.length ≤ cs.length := by
  unfold readNamed? at h
  split at h
  · dsimp only at h
    split at h
    · cases h
    · cases h
      simp only [List.length_drop, List.length_cons]
      omega
  · cases h

/-- Reading escapes makes no text longer. -/
theorem length_unescapeFrom?_le {fuel : Nat} {acc points : List Nat} {cs : List Char}
    (h : unescapeFrom? fuel acc cs = some points) : points.length ≤ acc.length + cs.length := by
  induction fuel generalizing acc cs with
  | zero =>
    cases h
    simp
  | succ fuel ih =>
    unfold unescapeFrom? at h
    split at h
    · cases h
      simp
    · cases h
      simp
    · rename_i c rest _
      split at h
      · have := ih h
        simp only [List.length_cons]
        omega
      · split at h
        · have := ih h
          simp only [List.length_drop, List.length_cons] at this ⊢
          omega
        · split at h
          · split at h
            · cases h
            · rename_i n left hhex
              have := length_readHex?_le hhex
              split at h
              · have := ih h
                simp only [List.length_cons] at this ⊢
                omega
              · cases h
          · split at h
            · split at h
              · rename_i d left hnamed
                have := length_readNamed?_le hnamed
                have := ih h
                simp only [List.length_cons] at this ⊢
                omega
              · cases h
            · split at h
              · have := ih h
                simp only [List.length_cons] at this ⊢
                omega
              · have := ih h
                simp only [List.length_cons] at this ⊢
                omega
    · have := ih h
      simp only [List.length_cons] at this ⊢
      omega

namespace Expressions

theorem length_plainText_le {q : Quotation} {points : List Nat} (h : plainText q = some points) :
    points.length ≤ q.body.length := by
  rw [plainText] at h
  split at h
  · cases h
    rw [List.length_map]
  · simpa using length_unescapeFrom?_le h

/-- The number of characters that texts are written with. -/
def quotedRoom (qs : List (Nat × Quotation)) : Nat := (qs.map fun q => q.2.body.length + 2).sum

@[grind =] theorem quotedRoom_cons (q : Nat × Quotation) (rest : List (Nat × Quotation)) :
    quotedRoom (q :: rest) = q.2.body.length + 2 + quotedRoom rest :=
  rfl

/-- Texts together are no longer than what they are written with. -/
theorem length_flatten_le {qs : List (Nat × Quotation)} {parts : List (List Nat)}
    (h : qs.mapM (fun q => plainText q.2) = some parts) :
    parts.flatten.length + 2 * qs.length ≤ quotedRoom qs := by
  induction qs generalizing parts with
  | nil =>
    cases h
    exact Nat.le_refl _
  | cons q rest ih =>
    rw [List.mapM_cons] at h
    obtain ⟨points, hpoints, h⟩ := Option.bind_eq_some_iff.mp h
    obtain ⟨others, hothers, h⟩ := Option.bind_eq_some_iff.mp h
    cases h
    have hlength := length_plainText_le hpoints
    have hrest := ih hothers
    simp only [quotedRoom, List.map_cons, List.sum_cons, List.flatten_cons, List.length_append,
      List.length_cons] at hrest ⊢
    omega

/-- A text and those next to it leave two characters for the quotes of the first. -/
theorem length_text_le {q : Nat × Quotation} {rest : List (Nat × Quotation)}
    {parts : List (List Nat)} (h : (q :: rest).mapM (fun q => plainText q.2) = some parts) :
    parts.flatten.length + 2 ≤ quotedRoom (q :: rest) := by
  have hlength := length_flatten_le h
  rw [List.length_cons] at hlength
  omega

end Expressions

end Concordance.Syntax
