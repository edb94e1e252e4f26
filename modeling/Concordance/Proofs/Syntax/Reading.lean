import Concordance.Syntax.Grammar.Basic
import Mathlib

/-!
# Readers stay within their tokens

A reader takes tokens from the front, so that what is ahead of it afterwards is the end of what was
ahead before, and what it answers is made from tokens of that list. This is a triple for each
reader: it starts from an end of some tokens `T`, and if it answers, an end of `T` is ahead and the
answer has a property that may depend on `T`. Nothing is said about readers that fail.

The triples of the single means by which the grammar is written down are here. The grammar itself is
put together from them, so that its triples follow from theirs.

## Main definitions

* `within`, `yields`: the two sides of the triples

## Main results

* `advance_spec`, `word_spec`: what is taken is one of the tokens
* `of_run`: what a triple says of an answer
* `while?_spec`, `commaList_spec`: what repetition keeps
-/

namespace Concordance.Syntax.Reader

open Std.Do

set_option mvcgen.warning false

variable {α β : Type} {T : List Token}

/-- The tokens ahead are the last ones of `T`. -/
abbrev within (T : List Token) : Assertion (.arg Cursor (.except PUnit .pure)) :=
  fun c => ⌜c.ahead <:+ T⌝

/-- If there is an answer, the tokens ahead are the last ones of `T`, and the answer has a
property. -/
abbrev yields (T : List Token) (P : α → Prop) : PostCond α (.arg Cursor (.except PUnit .pure)) :=
  ⇓? a c => ⌜c.ahead <:+ T ∧ P a⌝

/-- What every answer has. -/
abbrev anything (_ : α) : Prop := True

attribute [grind →] List.IsSuffix.trans

/-! ### Single tokens -/

@[spec] theorem failure_spec (Q : α → Cursor → Prop) :
    ⦃⌜True⌝⦄ (failure : Reader α) ⦃⇓? a c => ⌜Q a c⌝⦄ :=
  fun _ _ => trivial

theorem fails {P : List Token → α → Prop} (T : List Token) :
    ⦃within T⦄ (failure : Reader α) ⦃yields T (P T)⦄ :=
  fun _ _ => trivial

@[spec] theorem peek_spec : ⦃within T⦄ peek ⦃yields T (· ∈ T)⦄ := by
  mvcgen [peek]
  rename_i c hc t rest hahead
  exact ⟨hc, hc.subset (by simp [hahead])⟩

@[grind →] theorem suffix_of_cons {t : Token} {rest : List Token} (h : t :: rest <:+ T) :
    rest <:+ T ∧ t ∈ T :=
  ⟨(List.suffix_cons t rest).trans h, h.subset List.mem_cons_self⟩

/-- The token that is taken stands in front of those ahead. -/
@[spec] theorem advance_spec : ⦃within T⦄ advance ⦃⇓? t c => ⌜t :: c.ahead <:+ T⌝⦄ := by
  mvcgen [advance]
  rename_i c hc t rest hahead _
  exact hahead ▸ hc

@[spec] theorem isNext_spec (l : Lexeme) : ⦃within T⦄ isNext l ⦃yields T anything⦄ := by
  mvcgen [isNext]

@[spec] theorem atMark_spec (m : String) : ⦃within T⦄ atMark m ⦃yields T anything⦄ :=
  isNext_spec _

@[spec] theorem atKeyword_spec (k : String) : ⦃within T⦄ atKeyword k ⦃yields T anything⦄ :=
  isNext_spec _

@[spec] theorem accept_spec (l : Lexeme) : ⦃within T⦄ accept l ⦃yields T anything⦄ := by
  mvcgen [accept] with grind -ring -linarith

@[spec] theorem expect_spec (l : Lexeme) : ⦃within T⦄ expect l ⦃yields T anything⦄ := by
  mvcgen [expect] with grind -ring -linarith

@[spec] theorem mark_spec (m : String) : ⦃within T⦄ mark m ⦃yields T anything⦄ :=
  expect_spec _

@[spec] theorem keyword_spec (k : String) : ⦃within T⦄ keyword k ⦃yields T anything⦄ :=
  expect_spec _

@[spec] theorem acceptMark_spec (m : String) : ⦃within T⦄ acceptMark m ⦃yields T anything⦄ :=
  accept_spec _

@[spec] theorem acceptKeyword_spec (k : String) :
    ⦃within T⦄ acceptKeyword k ⦃yields T anything⦄ :=
  accept_spec _

/-- A name that is read is that of a token. -/
@[spec] theorem word_spec :
    ⦃within T⦄ word ⦃yields T fun name => ∃ t ∈ T, t.lexeme = .word name⦄ := by
  mvcgen [word] with grind -ring -linarith

@[spec] theorem wordAhead?_spec : ⦃within T⦄ wordAhead? ⦃yields T anything⦄ := by
  mvcgen [wordAhead?]

@[spec] theorem isSecond_spec (l : Lexeme) : ⦃within T⦄ isSecond l ⦃yields T anything⦄ := by
  mvcgen [isSecond]

@[spec] theorem placeFrom_spec (t : Token) : ⦃within T⦄ placeFrom t ⦃yields T anything⦄ := by
  mvcgen [placeFrom]

/-- A reader stays within its tokens whatever else it does. -/
theorem stays {P : List Token → α → Prop} {r : Reader α}
    (hr : ∀ T, ⦃within T⦄ r ⦃yields T (P T)⦄) (T : List Token) :
    ⦃within T⦄ r ⦃yields T anything⦄ := by
  mvcgen [hr] with grind -ring -linarith

/-- What the triple of a reader says of an answer. -/
theorem of_run {P : α → Prop} {r : Reader α} (hr : ⦃within T⦄ r ⦃yields T P⦄) {line : Nat}
    {a : α} {c : Cursor} (ha : r.run ⟨T, line⟩ = some (a, c)) : P a := by
  have h : (wp⟦r ⟨T, line⟩⟧ _).down := hr ⟨T, line⟩ List.suffix_rfl
  rw [show r ⟨T, line⟩ = some (a, c) from ha] at h
  exact h.2

/-! ### Repetition -/

section

variable {P : List Token → α → Prop} {go : Reader Bool} {r : Reader α}

theorem behind?_spec (hr : ∀ T, ⦃within T⦄ r ⦃yields T (P T)⦄)
    (hP : ∀ {T T' a}, P T a → T <:+ T' → P T' a) (l : Lexeme) :
    ⦃within T⦄ behind? l r ⦃yields T fun a => ∀ x ∈ a, P T x⦄ := by
  mvcgen [behind?, hr] with grind -ring -linarith

theorem while?_spec (hgo : ∀ T, ⦃within T⦄ go ⦃yields T anything⦄)
    (hr : ∀ T, ⦃within T⦄ r ⦃yields T (P T)⦄)
    (hP : ∀ {T T' a}, P T a → T <:+ T' → P T' a) (fuel : Nat) :
    ⦃within T⦄ while? fuel go r ⦃yields T fun l => ∀ a ∈ l, P T a⦄ := by
  induction fuel generalizing T with
  | zero =>
    mvcgen [while?]
    all_goals grind -ring -linarith
  | succ fuel ih =>
    mvcgen [while?, hgo, hr, ih]
    all_goals grind -ring -linarith

theorem separated_spec (hr : ∀ T, ⦃within T⦄ r ⦃yields T (P T)⦄)
    (hP : ∀ {T T' a}, P T a → T <:+ T' → P T' a) (fuel : Nat) :
    ⦃within T⦄ separated fuel r ⦃yields T fun l => ∀ a ∈ l, P T a⦄ := by
  have hrest := fun T => while?_spec (T := T) (acceptMark_spec (T := ·) ",") hr hP fuel
  mvcgen [separated, hr, hrest] with grind -ring -linarith

theorem commaList_spec (hends : ∀ T, ⦃within T⦄ go ⦃yields T anything⦄)
    (hr : ∀ T, ⦃within T⦄ r ⦃yields T (P T)⦄) (hP : ∀ {T T' a}, P T a → T <:+ T' → P T' a)
    (fuel : Nat) :
    ⦃within T⦄ commaList fuel go r ⦃yields T fun l => ∀ a ∈ l.2, P T a⦄ := by
  induction fuel generalizing T with
  | zero =>
    mvcgen [commaList]
    all_goals grind -ring -linarith
  | succ fuel ih =>
    mvcgen [commaList, hends, hr, ih]
    all_goals grind -ring -linarith

theorem behind?_stays (hr : ∀ T, ⦃within T⦄ r ⦃yields T anything⦄) (l : Lexeme) (T : List Token) :
    ⦃within T⦄ behind? l r ⦃yields T anything⦄ := by
  mvcgen [behind?, hr] with grind -ring -linarith

theorem while?_stays (hgo : ∀ T, ⦃within T⦄ go ⦃yields T anything⦄)
    (hr : ∀ T, ⦃within T⦄ r ⦃yields T anything⦄) (fuel : Nat) (T : List Token) :
    ⦃within T⦄ while? fuel go r ⦃yields T anything⦄ :=
  stays (fun _ => while?_spec hgo hr (fun _ _ => trivial) fuel) T

theorem separated_stays (hr : ∀ T, ⦃within T⦄ r ⦃yields T anything⦄) (fuel : Nat)
    (T : List Token) : ⦃within T⦄ separated fuel r ⦃yields T anything⦄ :=
  stays (fun _ => separated_spec hr (fun _ _ => trivial) fuel) T

theorem commaList_stays (hends : ∀ T, ⦃within T⦄ go ⦃yields T anything⦄)
    (hr : ∀ T, ⦃within T⦄ r ⦃yields T anything⦄) (fuel : Nat) (T : List Token) :
    ⦃within T⦄ commaList fuel go r ⦃yields T anything⦄ :=
  stays (fun _ => commaList_spec hends hr (fun _ _ => trivial) fuel) T

end

end Concordance.Syntax.Reader
