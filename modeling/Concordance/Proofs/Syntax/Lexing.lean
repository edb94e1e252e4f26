import Concordance.Proofs.Syntax.Reading
import Concordance.Proofs.Text.Normal
import Concordance.Syntax.Source

/-!
# Tokens and the characters they are made of

Every token is made from characters of its own. So the texts among the tokens have room, quotes and
all, in the source, and words are made of the characters that words are made of and are not blank.

One statement about two states of the analysis says both, `Lexer.Takes`: the tokens taken between
them fit into the characters passed. It is shown for each means of the analysis and holds along a
run.

## Main definitions

* `IsWord`, `Token.Spelled`: a word is the normal form of word characters
* `room`: what the texts among some tokens are written with
* `Lexer.Takes`: what an analysis takes between two states

## Main results

* `Lexer.takes_run?`: what a run takes
* `room_tokensFrom?_le`, `spelled_tokensFrom?`: the tokens of a source
-/

namespace Concordance.Syntax

/-! ### Words -/

/-- A name is spelled as words are: as the normal form of characters that can be part of words. And
it is not blank. -/
structure IsWord (name : String) : Prop where
  spelled : ∃ text : List Char,
    text.all Lexer.isWordChar ∧ name = Text.normalize (String.ofList text)
  not_blank : Text.isBlankText name = false

/-- There are no colons, dots and hash signs in words. -/
theorem IsWord.separator_notMem {name : String} (h : IsWord name) {c : Char}
    (hc : Text.isSeparator c.toNat = true) : c ∉ name.toList := by
  obtain ⟨⟨text, hword, rfl⟩, -⟩ := h
  refine Text.separator_notMem_normalize hc fun hmem => ?_
  rw [String.toList_ofList] at hmem
  have hnot : Lexer.isWordChar c = false := by
    rw [Text.isSeparator, Bool.or_eq_true_iff, Bool.or_eq_true_iff, beq_iff_eq, beq_iff_eq,
      beq_iff_eq] at hc
    rcases hc with (hc | hc) | hc <;> rw [← Char.ofNat_toNat c, hc] <;> decide
  rw [List.all_eq_true.mp hword c hmem] at hnot
  cases hnot

/-- A word is not empty. -/
theorem IsWord.ne_empty {name : String} (h : IsWord name) : name ≠ "" := by
  rintro rfl
  exact absurd h.not_blank (by decide)

/-- If the token is a word, it is spelled as words are. -/
def Token.Spelled (t : Token) : Prop := ∀ name, t.lexeme = .word name → IsWord name

/-! ### The room that texts take -/

/-- The number of characters that a text is written with, without the letters before it and with
two quotes. The value of a number would count as a text if it were one. -/
def Token.room (t : Token) : Nat :=
  match t.lexeme with
  | .quotation q => q.body.length + 2
  | .number (.string s) => s.length + 2
  | _ => 0

/-- The number of characters that the texts among some tokens are written with. -/
def room (T : List Token) : Nat := (T.map Token.room).sum

theorem room_le_of_suffix {T T' : List Token} (h : T <:+ T') : room T ≤ room T' := by
  obtain ⟨before, rfl⟩ := h
  rw [room, room, List.map_append, List.sum_append]
  exact Nat.le_add_left _ _

theorem room_cons_le {t : Token} {rest T : List Token} (h : t :: rest <:+ T) :
    t.room + room rest ≤ room T := by
  simpa [room] using room_le_of_suffix h

theorem room_le_of_mem {t : Token} {T : List Token} (h : t ∈ T) : t.room ≤ room T :=
  List.le_sum_of_mem (List.mem_map_of_mem h)

/-! ### Numbers -/

/-- Whether a literal is a text. -/
def Literal.isText : Literal → Bool
  | .string _ => Bool.true
  | _ => Bool.false

attribute [grind =] Literal.isText

@[grind →] theorem eq_of_endNumber? {v w : Literal} {cs rest : List Char}
    (h : endNumber? v cs = some (w, rest)) : w = v := by
  rw [endNumber?] at h
  split at h
  · cases h
    rfl
  · cases h

@[grind →] theorem isText_readBased? {base : Nat} {cs rest : List Char} {v : Literal}
    (h : readBased? base cs = some (v, rest)) : v.isText = false := by
  unfold readBased? at h
  grind -ring -linarith

@[grind →] theorem isText_finishDecimal? {ds : Digits} {places : Option Nat} {zero : Bool}
    {cs rest : List Char} {v : Literal} (h : finishDecimal? ds places zero cs = some (v, rest)) :
    v.isText = false := by
  unfold finishDecimal? at h
  grind -ring -linarith

/-- The value of a number is no text. -/
theorem isText_readNumber? {cs rest : List Char} {v : Literal}
    (h : readNumber? cs = some (v, rest)) : v.isText = false := by
  unfold readNumber? at h
  split at h
  any_goals exact isText_readBased? h
  · split at h
    · exact isText_finishDecimal? h
    · cases h
  · split at h
    · cases h
    · split at h
      · split at h
        · split at h
          · exact isText_finishDecimal? h
          · cases h
        · exact isText_finishDecimal? h
      · exact isText_finishDecimal? h
      · exact isText_finishDecimal? h
  · cases h

theorem room_number {v : Literal} (h : v.isText = false) (line column last : Nat) :
    Token.room ⟨.number v, line, column, last⟩ = 0 := by
  cases v with
  | string s => cases h
  | _ => rfl

namespace Lexer

/-! ### What is taken between two states -/

/-- Between two states tokens are taken, whose texts fit into the characters passed, and whose words
are spelled as words are. -/
def Takes (s s' : Lexer) : Prop :=
  ∃ taken, s'.tokens = taken ++ s.tokens ∧ room taken + s'.rest.length ≤ s.rest.length ∧
    ∀ t ∈ taken, t.Spelled

variable {s s' s'' : Lexer}

theorem Takes.refl (s : Lexer) : s.Takes s := ⟨[], rfl, by simp [room], by simp⟩

theorem room_append (T T' : List Token) : room (T ++ T') = room T + room T' := by
  simp [room]

theorem Takes.trans (h : s.Takes s') (h' : s'.Takes s'') : s.Takes s'' := by
  obtain ⟨first, hfirst, hroom, hspelled⟩ := h
  obtain ⟨more, hmore, hroom', hspelled'⟩ := h'
  refine ⟨more ++ first, by rw [hmore, hfirst, List.append_assoc], ?_, ?_⟩
  · rw [room_append]
    omega
  · intro t ht
    rcases List.mem_append.mp ht with ht | ht
    · exact hspelled' t ht
    · exact hspelled t ht

theorem Takes.after (h' : s'.Takes s'') (h : s.Takes s') : s.Takes s'' := h.trans h'

/-- Nothing is taken where only characters are passed. -/
theorem Takes.of_tokens_eq (ht : s'.tokens = s.tokens) (hr : s'.rest.length ≤ s.rest.length) :
    s.Takes s' :=
  ⟨[], ht, by simpa [room] using hr, by simp⟩

/-- One token is taken. -/
theorem Takes.of_cons {t : Token} (ht : s'.tokens = t :: s.tokens)
    (hr : t.room + s'.rest.length ≤ s.rest.length) (hs : t.Spelled) : s.Takes s' :=
  ⟨[t], ht, by simpa [room] using hr, by simpa using hs⟩

/-- A token that is neither text, number nor word. -/
theorem spelled_of_ne {t : Token} (h : ∀ name, t.lexeme ≠ .word name) : t.Spelled :=
  fun name hname => absurd hname (h name)

/-! ### The start of a line -/

theorem takes_insert (s : Lexer) {l : Lexeme} (h : l.isLayout = true) : s.Takes (s.insert l) := by
  refine .of_cons (t := ⟨l, s.line, s.column, s.line⟩) rfl ?_ ?_
  · cases l <;> simp_all [Token.room, insert, Lexeme.isLayout]
  · refine spelled_of_ne fun name hname => ?_
    simp only at hname
    rw [hname] at h
    cases h

theorem takes_dedents (s : Lexer) (ns : List Nat) :
    s.Takes (ns.foldl (fun s _ => s.insert .dedent) s) := by
  induction ns generalizing s with
  | nil => exact .refl s
  | cons n ns ih => exact (takes_insert s rfl).trans (ih _)

/-- Reading the blanks of a line passes characters and changes the place. -/
theorem readMargin?_eq_some {m m' : Margin} {cs : List Char}
    (h : readMargin? m s cs = some (m', s')) :
    s'.tokens = s.tokens ∧ s'.rest.length ≤ cs.length := by
  fun_induction readMargin? m s cs with
  | case1 m s rest ih =>
    obtain ⟨ht, hr⟩ := ih h
    exact ⟨ht, hr.trans (Nat.le_succ _)⟩
  | case2 m s rest ih =>
    obtain ⟨ht, hr⟩ := ih h
    exact ⟨ht, hr.trans (Nat.le_succ _)⟩
  | case3 m s rest ih =>
    obtain ⟨ht, hr⟩ := ih h
    exact ⟨ht, hr.trans (Nat.le_succ _)⟩
  | case4 m s c rest settled ih =>
    obtain ⟨ht, hr⟩ := ih h
    exact ⟨ht, hr.trans (by simp)⟩
  | case5 m s rest hrest => cases h
  | case6 m s rest =>
    cases h
    exact ⟨rfl, Nat.le_refl _⟩

theorem takes_indent? {wide narrow : Nat} (h : s.indent? wide narrow = some s') :
    s.Takes s' := by
  unfold indent? at h
  split at h
  · cases h
  · split at h
    · split at h
      · cases h
        exact .refl s
      · cases h
    · split at h
      · split at h
        · cases h
        · split at h
          · cases h
          · cases h
            exact (Takes.of_tokens_eq rfl (Nat.le_refl _)).trans (takes_insert _ rfl)
      · split at h
        · split at h
          · cases h
            exact (Takes.of_tokens_eq rfl (Nat.le_refl _)).trans (takes_dedents _ _)
          · cases h
        · cases h

theorem takes_beginLine? (h : s.beginLine? = some s') : s.Takes s' := by
  obtain ⟨⟨m, t⟩, hmargin, h⟩ := Option.bind_eq_some_iff.mp h
  obtain ⟨htokens, hrest⟩ := readMargin?_eq_some hmargin
  have hbegun {t' : Lexer} (ht : t'.tokens = t.tokens) (hr : t'.rest = t.rest) : s.Takes t' :=
    .of_tokens_eq (ht.trans htokens) (hr ▸ hrest)
  dsimp only at h
  split at h
  · cases h
    exact hbegun rfl rfl
  · cases h
    exact hbegun rfl rfl
  · split at h
    · split at h
      · split at h
        · exact (takes_indent? h).after (hbegun rfl rfl)
        · exact (takes_indent? h).after (hbegun rfl rfl)
      · exact (takes_indent? h).after (hbegun rfl rfl)
    · cases h
      exact hbegun rfl rfl

/-! ### Single tokens -/

theorem takes_take (s : Lexer) {l : Lexeme} (text rest : List Char)
    (hl : ∀ line column last, Token.room ⟨l, line, column, last⟩ = 0)
    (hs : ∀ line column last, Token.Spelled ⟨l, line, column, last⟩)
    (hr : rest.length ≤ s.rest.length) : s.Takes (s.take l text rest) :=
  .of_cons rfl (by rw [hl, Nat.zero_add]; exact hr) (hs _ _ _)

theorem length_quotationPrefix?_le {octets raw old formatted : Bool} {count letters : Nat}
    {q : Quotation} {cs quoted : List Char}
    (h : quotationPrefix? octets raw old formatted count cs = some (q, letters, quoted)) :
    quoted.length ≤ cs.length := by
  fun_induction quotationPrefix? octets raw old formatted count cs <;>
    grind -ring -linarith

theorem length_readShort?_lt {quote : Char} {acc cs body rest : List Char}
    (h : readShort? quote acc cs = some (body, rest)) :
    body.length + rest.length < acc.length + cs.length := by
  fun_induction readShort? quote acc cs <;> grind -ring -linarith

theorem length_readLong?_lt {quote : Char} {acc cs body rest : List Char}
    (h : readLong? quote acc cs = some (body, rest)) :
    body.length + rest.length < acc.length + cs.length := by
  fun_induction readLong? quote acc cs <;> grind -ring -linarith

/-- A text has a quote on both sides. -/
theorem length_readQuoted?_le {cs body rest : List Char} {quotes : Nat}
    (h : readQuoted? cs = some (quotes, body, rest)) :
    body.length + 2 + rest.length ≤ cs.length := by
  unfold readQuoted? at h
  split at h
  · split at h
    · obtain ⟨⟨body', rest'⟩, hread, h⟩ := Option.map_eq_some_iff.mp h
      cases h
      have hlength := length_readLong?_lt hread
      simp only [List.length_nil, List.length_drop, List.length_cons] at hlength ⊢
      omega
    · obtain ⟨⟨body', rest'⟩, hread, h⟩ := Option.map_eq_some_iff.mp h
      cases h
      have hlength := length_readShort?_lt hread
      simp only [List.length_nil, List.length_cons] at hlength ⊢
      omega
  · cases h

theorem takes_takeQuotation? {q : Quotation} {letters : Nat} {quoted : List Char}
    (hq : quoted.length ≤ s.rest.length) (h : s.takeQuotation? q letters quoted = some s') :
    s.Takes s' := by
  unfold takeQuotation? at h
  split at h
  · cases h
  · rename_i quotes body rest hread
    cases h
    have hlength := length_readQuoted?_le hread
    refine .of_cons rfl ?_ (spelled_of_ne fun name hname => by cases hname)
    exact hlength.trans hq

theorem takes_takeNumber? (h : s.takeNumber? = some s') : s.Takes s' := by
  unfold takeNumber? at h
  dsimp only at h
  split at h
  · cases h
  · rename_i value left hread
    cases h
    refine takes_take s _ _ (room_number (isText_readNumber? hread)) (fun _ _ _ => ?_) (by simp)
    exact spelled_of_ne fun name hname => by cases hname

theorem takes_takeWord? {c : Char} {more : List Char} (hc : isWordChar c = true)
    (hcs : s.rest = c :: more) (h : s.takeWord? = some s') : s.Takes s' := by
  have hrest : (s.rest.dropWhile isWordChar).length ≤ s.rest.length :=
    (List.dropWhile_sublist _).length_le
  have hword : (s.rest.takeWhile isWordChar).all isWordChar := List.all_takeWhile
  have htext : s.rest.takeWhile isWordChar = c :: more.takeWhile isWordChar := by
    rw [hcs, List.takeWhile_cons_of_pos hc]
  unfold takeWord? at h
  dsimp only at h
  split at h
  · cases h
    exact takes_take s _ _ (fun _ _ _ => rfl)
      (fun _ _ _ => spelled_of_ne fun name hname => by cases hname) hrest
  · split at h
    · rename_i hascii
      cases h
      refine takes_take s _ _ (fun _ _ _ => rfl) (fun _ _ _ name hname => ?_) hrest
      cases hname
      refine ⟨⟨_, hword, ?_⟩, ?_⟩
      · rw [Text.normalize, if_pos (by simpa using hascii)]
      · rw [htext, List.all_cons, Bool.and_eq_true_iff, decide_eq_true_eq] at hascii
        have hplain : (c.isAlphanum || c == '_') = true := by
          simpa [isWordChar, Nat.not_le.mpr hascii.1] using hc
        simp [htext, Text.isBlankText, Text.isBlank_of_isAlphanum hascii.1 hplain]
    · split at h
      · rename_i hidentifier
        cases h
        refine takes_take s _ _ (fun _ _ _ => rfl) (fun _ _ _ name hname => ?_) hrest
        cases hname
        exact ⟨⟨_, hword, rfl⟩, Text.isBlankText_normalize hidentifier⟩
      · cases h

theorem takes_takeMarkToken? (h : s.takeMarkToken? = some s') : s.Takes s' := by
  unfold takeMarkToken? at h
  split at h
  · cases h
  · rename_i text rest hmark
    obtain ⟨m, -, hm⟩ := Option.map_eq_some_iff.mp hmark
    cases hm
    have htake : s.Takes (s.take (.mark (String.ofList text)) text (s.rest.drop text.length)) :=
      takes_take s _ _ (fun _ _ _ => rfl)
        (fun _ _ _ => spelled_of_ne fun name hname => by cases hname) (by simp)
    have hafter (t : Lexer) (ht : t.tokens = (s.take (.mark (String.ofList text)) text
        (s.rest.drop text.length)).tokens) (hr : t.rest = s.rest.drop text.length) : s.Takes t :=
      htake.trans (.of_tokens_eq ht (le_of_eq (congrArg List.length hr)))
    dsimp only at h
    split at h
    · split at h
      · split at h
        · cases h
          exact hafter _ rfl rfl
        · cases h
      · split at h
        · split at h
          · cases h
          · split at h
            · cases h
              exact hafter _ rfl rfl
            · cases h
        · cases h
          exact htake
    · cases h
      exact htake

/-! ### The whole text -/

theorem takes_step? {c : Char} {rest : List Char} (hrest : s.rest = c :: rest)
    (h : s.step? c rest = some s') : s.Takes s' := by
  have hlength : s.rest.length = rest.length + 1 := congrArg List.length hrest
  unfold step? at h
  split at h
  · cases h
    exact .of_tokens_eq rfl (List.dropWhile_sublist _).length_le
  · split at h
    · dsimp only at h
      split at h
      · cases h
        exact .of_tokens_eq rfl (by simp only; omega)
      · cases h
        exact .of_cons rfl (by simp only [Token.room]; omega)
          (spelled_of_ne fun name hname => by cases hname)
    · split at h
      · split at h
        · split at h
          · cases h
          · rename_i more _
            cases h
            exact .of_tokens_eq rfl (by rw [hlength]; simp only [List.length_cons]; omega)
        · cases h
      · split at h
        · exact takes_takeNumber? h
        · split at h
          · rename_i hstart
            split at h
            · rename_i hprefix
              exact takes_takeQuotation? (length_quotationPrefix?_le hprefix) h
            · rename_i hprefix
              refine takes_takeWord? ?_ hrest h
              -- Texts are read behind their quotes, so that this character is none.
              rw [hrest] at hprefix
              by_cases hc : isWordChar c
              · exact hc
              · obtain rfl | rfl : c = '\'' ∨ c = '"' := by simpa [hc] using hstart
                · cases hprefix
                · cases hprefix
          · exact takes_takeMarkToken? h

/-- What a run of the analysis takes. -/
theorem takes_run? {fuel : Nat} (h : run? fuel s = some s') : s.Takes s' := by
  induction fuel generalizing s with
  | zero => cases h
  | succ fuel ih =>
    unfold run? at h
    split at h
    · cases h
    · rename_i t hbegin
      have hline : s.Takes t := by
        split at hbegin
        · exact takes_beginLine? hbegin
        · cases hbegin
          exact .refl s
      refine hline.trans ?_
      split at h
      · split at h
        · cases h
          exact (takes_dedents _ _).trans (takes_insert _ rfl)
        · cases h
      · rename_i c rest hrest
        split at h
        · exact (ih h).after (.of_tokens_eq rfl (by simp [hrest]))
        · split at h
          · rename_i t' hstep
            exact (takes_step? hrest hstep).trans (ih h)
          · cases h

end Lexer

/-! ### Sources -/

theorem length_unifyLineEnds_le (cs : List Char) :
    (unifyLineEnds cs).length ≤ cs.length := by
  fun_induction unifyLineEnds cs with
  | case1 => exact Nat.le_refl _
  | case2 rest ih => exact Nat.succ_le_succ (ih.trans (Nat.le_succ _))
  | case3 rest _ ih => exact Nat.succ_le_succ ih
  | case4 c rest _ _ ih => exact Nat.succ_le_succ ih

theorem length_endLastLine_le (cs : List Char) : (endLastLine cs).length ≤ cs.length + 1 := by
  rw [endLastLine]
  split
  · exact Nat.le_succ _
  · exact Nat.le_succ _
  · simp

theorem takes_tokensFrom? {line : Nat} {cs : List Char} {T : List Token}
    (h : tokensFrom? line cs = some T) : room T ≤ cs.length + 1 ∧ ∀ t ∈ T, t.Spelled := by
  obtain ⟨s, hs, rfl⟩ := Option.map_eq_some_iff.mp h
  obtain ⟨taken, htaken, hroom, hspelled⟩ := Lexer.takes_run? hs
  have hends := length_endLastLine_le (unifyLineEnds cs)
  have hunified := length_unifyLineEnds_le cs
  simp only [List.append_nil] at htaken
  rw [htaken]
  refine ⟨?_, fun t ht => hspelled t (List.mem_reverse.mp ht)⟩
  have hreverse : room taken.reverse = room taken := by simp [room]
  simp only at hroom
  omega

/-- The texts among the tokens of a source have room in it. -/
theorem room_tokensFrom?_le {line : Nat} {cs : List Char} {T : List Token}
    (h : tokensFrom? line cs = some T) : room T ≤ cs.length + 1 :=
  (takes_tokensFrom? h).1

/-- The words among the tokens of a source are spelled as words are. -/
theorem spelled_tokensFrom? {line : Nat} {cs : List Char} {T : List Token}
    (h : tokensFrom? line cs = some T) : ∀ t ∈ T, t.Spelled :=
  (takes_tokensFrom? h).2

end Concordance.Syntax
