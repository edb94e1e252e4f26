import Concordance.Declaration.Class
import Concordance.Proofs.Syntax.Lexing

/-!
# Tokens in the order of a text

The place that an analysis has come to never goes back, and a token that has characters of its own
moves it on. So every such token stands before all that are taken later. Tokens of the layout have
no characters: the end of a block stands where the next statement does, so that only the others are
looked at.

`Lexer.Ordered` says it of a state: the place it has come to and the tokens taken, last first, are
in descending order. Each means of the analysis keeps it.

## Main definitions

* `Position.Before`, `Position.UpTo`: the order of places in a text
* `placesOf`: where tokens stand, those of the layout apart
* `Lexer.Ordered`: the tokens taken stand in order

## Main results

* `pairwise_before_tokensFrom?`: the tokens of a source stand in order
-/

namespace Concordance

/-! ### The order of places -/

namespace Position

/-- A place is in front of another one. -/
def Before (p q : Position) : Prop := p.line < q.line ∨ p.line = q.line ∧ p.column < q.column

/-- A place is not behind another one. -/
def UpTo (p q : Position) : Prop := p.line < q.line ∨ p.line = q.line ∧ p.column ≤ q.column

instance (p q : Position) : Decidable (p.Before q) := inferInstanceAs (Decidable (_ ∨ _ ∧ _))

variable {p q r : Position}

theorem before_of_line_lt {line line' : Nat} (h : line < line') (column column' : Nat) :
    Before ⟨line, column⟩ ⟨line', column'⟩ :=
  .inl h

theorem before_of_column_lt (line : Nat) {column column' : Nat} (h : column < column') :
    Before ⟨line, column⟩ ⟨line, column'⟩ :=
  .inr ⟨rfl, h⟩

theorem upTo_of_column_le (line : Nat) {column column' : Nat} (h : column ≤ column') :
    UpTo ⟨line, column⟩ ⟨line, column'⟩ :=
  .inr ⟨rfl, h⟩

theorem UpTo.refl (p : Position) : p.UpTo p := .inr ⟨rfl, Nat.le_refl _⟩

theorem UpTo.trans (h : p.UpTo q) (h' : q.UpTo r) : p.UpTo r := by
  unfold UpTo at *
  omega

theorem Before.upTo (h : p.Before q) : p.UpTo q := by
  unfold Before at h
  unfold UpTo
  omega

theorem Before.trans_upTo (h : p.Before q) (h' : q.UpTo r) : p.Before r := by
  unfold Before UpTo at *
  omega

theorem Before.trans (h : p.Before q) (h' : q.Before r) : p.Before r := h.trans_upTo h'.upTo

theorem Before.asymm (h : p.Before q) : ¬ q.Before p := by
  unfold Before at *
  omega

end Position

namespace Syntax

/-- Where a token starts. -/
def Token.position (t : Token) : Position := ⟨t.line, t.column⟩

/-- Where tokens start, those of the layout apart. -/
def placesOf (T : List Token) : List Position :=
  (T.filter fun t => !t.lexeme.isLayout).map Token.position

theorem placesOf_cons_of_isLayout {t : Token} (h : t.lexeme.isLayout = true) (T : List Token) :
    placesOf (t :: T) = placesOf T := by
  rw [placesOf, List.filter_cons_of_neg (by simp [h]), placesOf]

theorem placesOf_cons_of_not_isLayout {t : Token} (h : t.lexeme.isLayout = false)
    (T : List Token) : placesOf (t :: T) = t.position :: placesOf T := by
  rw [placesOf, List.filter_cons_of_pos (by simp [h]), List.map_cons, placesOf]

/-! ### Numbers -/

theorem length_endNumber?_le {v w : Literal} {cs rest : List Char}
    (h : endNumber? v cs = some (w, rest)) : rest.length ≤ cs.length := by
  unfold endNumber? at h
  grind -ring -linarith

theorem length_readDigits?_le {base : Nat} {ds ds' : Digits} {cs rest : List Char}
    (h : readDigits? base ds cs = some (ds', rest)) : rest.length ≤ cs.length := by
  fun_induction readDigits? base ds cs <;> grind -ring -linarith

theorem length_readBased?_le {base : Nat} {cs rest : List Char} {v : Literal}
    (h : readBased? base cs = some (v, rest)) : rest.length ≤ cs.length := by
  unfold readBased? at h
  grind -ring -linarith [→ length_endNumber?_le, → length_readDigits?_le]

theorem length_readExponent?_le {cs rest : List Char} {exponent : Option Int}
    (h : readExponent? cs = some (exponent, rest)) : rest.length ≤ cs.length := by
  unfold readExponent? at h
  grind -ring -linarith [→ length_readDigits?_le, Option.map_eq_some_iff]

theorem length_finishDecimal?_le {ds : Digits} {places : Option Nat} {zero : Bool}
    {cs rest : List Char} {v : Literal} (h : finishDecimal? ds places zero cs = some (v, rest)) :
    rest.length ≤ cs.length := by
  unfold finishDecimal? at h
  grind -ring -linarith [→ length_endNumber?_le, → length_readExponent?_le]

/-- A number has characters of its own. -/
theorem length_readNumber?_lt {cs rest : List Char} {v : Literal}
    (h : readNumber? cs = some (v, rest)) : rest.length < cs.length := by
  unfold readNumber? at h
  split at h
  any_goals
    have hbased := length_readBased?_le h
    simp only [List.length_cons]
    omega
  · grind -ring -linarith [→ length_readDigits?_le, → length_finishDecimal?_le]
  · split at h
    · cases h
    · rename_i hdigits
      have hwhole := length_readDigits?_le hdigits
      grind -ring -linarith [→ length_readDigits?_le, → length_finishDecimal?_le]
  · cases h

/-! ### The places of an analysis -/

namespace Lexer

/-- The place that an analysis has come to. -/
def position (s : Lexer) : Position := ⟨s.line, s.column⟩

/-- The tokens taken stand in order, and in front of the place that the analysis has come to. -/
def Ordered (s : Lexer) : Prop :=
  (s.position :: placesOf s.tokens).Pairwise fun later earlier => earlier.Before later

variable {s s' : Lexer}

/-- The analysis may go on without taking a token that counts. -/
theorem Ordered.move (h : s.Ordered) (hp : s.position.UpTo s'.position)
    (ht : placesOf s'.tokens = placesOf s.tokens) : s'.Ordered := by
  obtain ⟨hlast, hrest⟩ := List.pairwise_cons.mp h
  rw [Ordered, ht]
  exact List.pairwise_cons.mpr ⟨fun p hp' => (hlast p hp').trans_upTo hp, hrest⟩

/-- The analysis may take a token where it stands, if it goes on from there. -/
theorem Ordered.take (h : s.Ordered) (hp : s.position.Before s'.position)
    (ht : placesOf s'.tokens = s.position :: placesOf s.tokens) : s'.Ordered := by
  obtain ⟨hlast, -⟩ := List.pairwise_cons.mp h
  rw [Ordered, ht]
  refine List.pairwise_cons.mpr ⟨fun p hp' => ?_, h⟩
  rcases List.mem_cons.mp hp' with rfl | hp'
  · exact hp
  · exact (hlast p hp').trans hp

/-! ### Passing characters -/

theorem upTo_after (line column : Nat) (text : List Char) :
    Position.UpTo ⟨line, column⟩ ⟨(after line column text).1, (after line column text).2⟩ := by
  fun_induction after line column text with
  | case1 line column => exact .refl _
  | case2 line column rest ih =>
    exact (Position.before_of_line_lt (Nat.lt_succ_self _) _ _).upTo.trans ih
  | case3 line column c rest _ ih =>
    exact (Position.upTo_of_column_le _ (Nat.le_add_right _ _)).trans ih

theorem before_after (line column : Nat) {text : List Char} (h : text ≠ []) :
    Position.Before ⟨line, column⟩ ⟨(after line column text).1, (after line column text).2⟩ := by
  cases text with
  | nil => exact absurd rfl h
  | cons c rest =>
    by_cases hc : c = '\n'
    · subst hc
      exact (Position.before_of_line_lt (Nat.lt_succ_self _) _ _).trans_upTo (upTo_after _ 0 rest)
    · have hsize : 0 < c.utf8Size := Char.utf8Size_pos c
      rw [after.eq_3 _ _ _ _ hc]
      exact (Position.before_of_column_lt _ (Nat.lt_add_of_pos_right hsize)).trans_upTo
        (upTo_after line (column + c.utf8Size) rest)

/-- On one line only the column changes. -/
theorem le_after_of_notMem {line column : Nat} {text : List Char} (h : '\n' ∉ text) :
    column ≤ (after line column text).2 := by
  induction text generalizing column with
  | nil => exact Nat.le_refl _
  | cons c rest ih =>
    rw [List.mem_cons, not_or] at h
    obtain ⟨hc, hrest⟩ := h
    rw [after.eq_3 _ _ _ _ (Ne.symm hc)]
    exact (Nat.le_add_right _ _).trans (ih hrest)

/-! ### The start of a line -/

theorem ordered_insert (h : s.Ordered) {l : Lexeme} (hl : l.isLayout = true) :
    (s.insert l).Ordered :=
  h.move (.refl _) (placesOf_cons_of_isLayout hl _)

theorem ordered_dedents (h : s.Ordered) (ns : List Nat) :
    (ns.foldl (fun s _ => s.insert .dedent) s).Ordered := by
  induction ns generalizing s with
  | nil => exact h
  | cons n ns ih => exact ih (ordered_insert h rfl)

theorem upTo_readMargin? {m m' : Margin} {cs : List Char}
    (h : readMargin? m s cs = some (m', s')) : s.position.UpTo s'.position := by
  fun_induction readMargin? m s cs with
  | case1 m s rest ih => exact (Position.upTo_of_column_le _ (Nat.le_succ _)).trans (ih h)
  | case2 m s rest ih => exact (Position.upTo_of_column_le _ (Nat.le_succ _)).trans (ih h)
  | case3 m s rest ih => exact (Position.upTo_of_column_le _ (Nat.le_succ _)).trans (ih h)
  | case4 m s c rest settled ih =>
    exact (Position.before_of_line_lt (Nat.lt_succ_self _) _ _).upTo.trans (ih h)
  | case5 m s rest hrest => cases h
  | case6 m s rest =>
    cases h
    exact .refl _

theorem ordered_indent? (hs : s.Ordered) {wide narrow : Nat}
    (h : s.indent? wide narrow = some s') : s'.Ordered := by
  -- only the indentations that are open change before a token is inserted
  have hopen (indents : List (Nat × Nat)) : Ordered { s with indents } := hs
  unfold indent? at h
  split at h
  · cases h
  · split at h
    · split at h
      · cases h
        exact hs
      · cases h
    · split at h
      · split at h
        · cases h
        · split at h
          · cases h
          · cases h
            exact ordered_insert (hopen _) rfl
      · split at h
        · split at h
          · cases h
            exact ordered_dedents (hopen _) _
          · cases h
        · cases h

theorem ordered_beginLine? (hs : s.Ordered) (h : s.beginLine? = some s') : s'.Ordered := by
  obtain ⟨⟨m, t⟩, hmargin, h⟩ := Option.bind_eq_some_iff.mp h
  have htokens := (readMargin?_eq_some hmargin).1
  have ht : t.Ordered := hs.move (upTo_readMargin? hmargin) (by rw [htokens])
  have hbegun (lineStart blankLine : Bool) : Ordered { t with lineStart, blankLine } := ht
  dsimp only at h
  split at h
  · cases h
    exact hbegun _ _
  · cases h
    exact hbegun _ _
  · split at h
    · split at h
      · split at h
        · exact ordered_indent? (hbegun _ _) h
        · exact ordered_indent? (hbegun _ _) h
      · exact ordered_indent? (hbegun _ _) h
    · cases h
      exact hbegun _ _

/-! ### Single tokens -/

theorem ordered_take (hs : s.Ordered) {l : Lexeme} (hl : l.isLayout = false) {text : List Char}
    (ht : text ≠ []) (rest : List Char) : (s.take l text rest).Ordered :=
  hs.take (before_after s.line s.column ht) (placesOf_cons_of_not_isLayout hl _)

theorem ordered_takeQuotation? (hs : s.Ordered) {q : Quotation} {letters : Nat}
    {quoted : List Char} (h : s.takeQuotation? q letters quoted = some s') : s'.Ordered := by
  unfold takeQuotation? at h
  split at h
  · cases h
  · rename_i quotes body rest hread
    have hquotes : 0 < quotes := by
      unfold readQuoted? at hread
      split at hread
      · split at hread
        · obtain ⟨_, -, hread⟩ := Option.map_eq_some_iff.mp hread
          cases hread
          exact Nat.succ_pos _
        · obtain ⟨_, -, hread⟩ := Option.map_eq_some_iff.mp hread
          cases hread
          exact Nat.succ_pos _
      · cases hread
    cases h
    have hbody := upTo_after s.line (s.column + letters + quotes) body
    refine hs.take ?_ (placesOf_cons_of_not_isLayout rfl _)
    unfold Position.UpTo at hbody
    unfold Position.Before position
    dsimp only at hbody ⊢
    omega

theorem ordered_takeNumber? (hs : s.Ordered) (h : s.takeNumber? = some s') : s'.Ordered := by
  unfold takeNumber? at h
  dsimp only at h
  split at h
  · cases h
  · rename_i value left hread
    cases h
    refine ordered_take hs rfl ?_ _
    have hlength := length_readNumber?_lt hread
    rw [Ne, List.take_eq_nil_iff, not_or]
    exact ⟨by omega, List.ne_nil_of_length_pos (by omega)⟩

theorem ordered_takeWord? (hs : s.Ordered) {c : Char} {more : List Char}
    (hc : isWordChar c = true) (hcs : s.rest = c :: more) (h : s.takeWord? = some s') :
    s'.Ordered := by
  have htext : s.rest.takeWhile isWordChar ≠ [] := by
    rw [hcs, List.takeWhile_cons_of_pos hc]
    exact List.cons_ne_nil _ _
  unfold takeWord? at h
  dsimp only at h
  split at h
  · cases h
    exact ordered_take hs rfl htext _
  · split at h
    · cases h
      exact ordered_take hs rfl htext _
    · split at h
      · cases h
        exact ordered_take hs rfl htext _
      · cases h

theorem ordered_takeMarkToken? (hs : s.Ordered) (h : s.takeMarkToken? = some s') :
    s'.Ordered := by
  unfold takeMarkToken? at h
  split at h
  · cases h
  · rename_i text rest hmark
    obtain ⟨m, hm, heq⟩ := Option.map_eq_some_iff.mp hmark
    have hnonempty : ∀ m ∈ marks, m ≠ [] := by decide
    have htext : text ≠ [] := by
      cases heq
      exact hnonempty _ (List.mem_of_find?_eq_some hm)
    have htake (brackets : List Char) :
        Ordered { s.take (.mark (String.ofList text)) text rest with brackets } :=
      ordered_take hs rfl htext rest
    dsimp only at h
    split at h
    · split at h
      · split at h
        · cases h
          exact htake _
        · cases h
      · split at h
        · split at h
          · cases h
          · split at h
            · cases h
              exact htake _
            · cases h
        · cases h
          exact htake _
    · cases h
      exact htake _

/-! ### The whole text -/

/-- What may begin a text or a word, and begins no text, is a character of words. -/
theorem isWordChar_of_quotationPrefix? {c : Char} {cs rest : List Char} (hcs : cs = c :: rest)
    (h : quotationPrefix? false false false false 0 cs = none)
    (hc : (c = '\'' || c = '"' || isWordChar c) = true) : isWordChar c = true := by
  subst hcs
  by_cases hword : isWordChar c
  · exact hword
  · obtain rfl | rfl : c = '\'' ∨ c = '"' := by simpa [hword] using hc
    · cases h
    · cases h

theorem ordered_step? (hs : s.Ordered) {c : Char} {rest : List Char} (hrest : s.rest = c :: rest)
    (h : s.step? c rest = some s') : s'.Ordered := by
  unfold step? at h
  split at h
  · cases h
    have hline : '\n' ∉ s.rest.takeWhile (· ≠ '\n') := fun hmem => by
      simpa using List.mem_takeWhile_imp hmem
    exact hs.move (Position.upTo_of_column_le _ (le_after_of_notMem hline)) rfl
  · split at h
    · have hnext : s.position.UpTo ⟨s.line + 1, 0⟩ :=
        (Position.before_of_line_lt (Nat.lt_succ_self _) _ _).upTo
      dsimp only at h
      split at h
      · cases h
        exact hs.move hnext rfl
      · cases h
        exact hs.move hnext (placesOf_cons_of_isLayout rfl _)
    · split at h
      · split at h
        · split at h
          · cases h
          · cases h
            exact hs.move (Position.before_of_line_lt (Nat.lt_succ_self _) _ _).upTo rfl
        · cases h
      · split at h
        · exact ordered_takeNumber? hs h
        · split at h
          · rename_i hstart
            split at h
            · exact ordered_takeQuotation? hs h
            · rename_i hprefix
              exact ordered_takeWord? hs (isWordChar_of_quotationPrefix? hrest hprefix hstart)
                hrest h
          · exact ordered_takeMarkToken? hs h

theorem ordered_run? {fuel : Nat} (hs : s.Ordered) (h : run? fuel s = some s') : s'.Ordered := by
  induction fuel generalizing s with
  | zero => cases h
  | succ fuel ih =>
    unfold run? at h
    split at h
    · cases h
    · rename_i t hbegin
      have ht : t.Ordered := by
        split at hbegin
        · exact ordered_beginLine? hs hbegin
        · cases hbegin
          exact hs
      split at h
      · split at h
        · cases h
          exact ordered_insert (ordered_dedents ht _) rfl
        · cases h
      · rename_i c rest hrest
        split at h
        · have hgap : Ordered { t with rest, column := t.column + 1 } :=
            ht.move (Position.upTo_of_column_le _ (Nat.le_succ _)) rfl
          exact ih hgap h
        · split at h
          · rename_i t' hstep
            exact ih (ordered_step? ht hrest hstep) h
          · cases h

end Lexer

/-- **The tokens of a source stand in order**, those of the layout apart. -/
theorem pairwise_before_tokensFrom? {line : Nat} {cs : List Char} {T : List Token}
    (h : tokensFrom? line cs = some T) : (placesOf T).Pairwise Position.Before := by
  obtain ⟨s, hs, rfl⟩ := Option.map_eq_some_iff.mp h
  have hstart : Lexer.Ordered { rest := endLastLine (unifyLineEnds cs), line } :=
    List.pairwise_singleton _ _
  have hordered := Lexer.ordered_run? hstart hs
  rw [placesOf, List.filter_reverse, List.map_reverse, List.pairwise_reverse]
  exact (List.pairwise_cons.mp hordered).2

end Syntax

end Concordance
