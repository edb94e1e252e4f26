import Concordance.Text.Blank
import Concordance.Text.Compatibility
import Concordance.Text.Identifier

/-!
# Characters of normal forms

A normal form is put together from code points of the text, from parts of decompositions and from
compositions, whatever the order of marks is. The tables of both hold neither blanks nor the colons,
dots and hash signs that ids are written with, so that these stand in a normal form only if they
stand in the text. No identifier has one of them, and so its normal form has none, and is not empty.

## Main definitions

* `isSeparator`: what ids are written with
* `isPlain`: code points other than that and blanks
* `passesFrom`: whether all words of a table that is written as text have something in common

## Main results

* `passes_of_mem_readHexTable`: what this says of the table
* `mem_normalize`: what normal forms are made of
* `separator_notMem_normalize`: no colon, dot or hash sign comes in
* `isBlankText_normalize`: the normal form of an identifier is not blank
-/

namespace Concordance.Text

/-! ### Words of tables -/

/-- Whether a word has what is asked for, or is none; `numbers` are those before `number`, last
first. -/
def passes (p : List Nat → Bool) (numbers : List Nat) (number : Option Nat) : Bool :=
  (number.toList ++ numbers).isEmpty || p (number.toList ++ numbers).reverse

/-- Whether all words that characters write have what is asked for, going on with a word. -/
def passesFrom (p : List Nat → Bool) (numbers : List Nat) (number : Option Nat) : List Char → Bool
  | [] => passes p numbers number
  | c :: rest =>
    match smallHexDigit? c with
    | some d => passesFrom p numbers (some (number.getD 0 * 16 + d)) rest
    | none =>
      if c = ' ' || c = '\n' then passes p numbers number && passesFrom p [] none rest
      else passesFrom p (number.toList ++ numbers) none rest

namespace HexTableState

variable {p : List Nat → Bool} {s : HexTableState}

theorem endNumber_eq (s : HexTableState) :
    s.endNumber = ⟨s.words, s.number.toList ++ s.numbers, none⟩ := by
  obtain ⟨words, numbers, number⟩ := s
  cases number <;> rfl

theorem passes_of_mem_endWord (hwords : ∀ w ∈ s.words, p w) (h : passes p s.numbers s.number) :
    (∀ w ∈ s.endWord.words, p w) ∧ s.endWord.numbers = [] ∧ s.endWord.number = none := by
  rw [endWord, endNumber_eq]
  rw [passes] at h
  dsimp only
  by_cases hempty : (s.number.toList ++ s.numbers).isEmpty
  · rw [if_pos hempty]
    exact ⟨hwords, List.isEmpty_iff.mp hempty, rfl⟩
  · rw [if_neg hempty]
    refine ⟨fun w hw => ?_, rfl, rfl⟩
    rcases Array.mem_push.mp hw with hw | rfl
    · exact hwords w hw
    · exact (Bool.or_eq_true_iff.mp h).resolve_left hempty

theorem passes_of_mem_foldl_step (hwords : ∀ w ∈ s.words, p w) {cs : List Char}
    (h : passesFrom p s.numbers s.number cs) : ∀ w ∈ (cs.foldl step s).endWord.words, p w := by
  induction cs generalizing s with
  | nil => exact (passes_of_mem_endWord hwords h).1
  | cons c cs ih =>
    rw [passesFrom] at h
    rw [List.foldl_cons, step]
    cases hd : smallHexDigit? c with
    | some d =>
      rw [hd] at h
      exact ih (s := { s with number := some (s.number.getD 0 * 16 + d) }) hwords h
    | none =>
      rw [hd] at h
      dsimp only at h ⊢
      split at h
      · rename_i hend
        rw [if_pos hend]
        obtain ⟨hpass, hrest⟩ := Bool.and_eq_true_iff.mp h
        obtain ⟨hended, hnumbers, hnumber⟩ := passes_of_mem_endWord hwords hpass
        exact ih hended (by rw [hnumbers, hnumber]; exact hrest)
      · rename_i hend
        rw [if_neg hend, endNumber_eq]
        exact ih hwords h

end HexTableState

/-- The words of a table have what all words that its characters write have. -/
theorem passes_of_mem_readHexTable {p : List Nat → Bool} {s : String}
    (h : passesFrom p [] none s.toList) : ∀ w ∈ readHexTable s, p w :=
  HexTableState.passes_of_mem_foldl_step (s := {}) (by simp) h

theorem passes_of_mem_readHexTables {p : List Nat → Bool} {texts : List String}
    (h : ∀ s ∈ texts, passesFrom p [] none s.toList) : ∀ w ∈ readHexTables texts, p w := by
  intro w hw
  obtain ⟨s, hs, hw⟩ := List.mem_flatMap.mp (List.mem_toArray.mp hw)
  exact passes_of_mem_readHexTable (h s hs) w (Array.mem_toList_iff.mp hw)

theorem passesFrom_ofList {p : List Nat → Bool} {cs : List Char} (h : passesFrom p [] none cs) :
    passesFrom p [] none (String.ofList cs).toList := by
  rwa [String.toList_ofList]

/-! ### Plain code points -/

/-- Whether a code point is the colon, the dot or the hash sign. -/
def isSeparator (n : Nat) : Bool := n == 0x3A || n == 0x2E || n == 0x23

theorem isSeparator_eq_false {n : Nat} (h : 0x3A < n) : isSeparator n = false := by
  simp [isSeparator]
  omega

/-- Whether a code point is neither one of these nor white space. -/
def isPlain (n : Nat) : Bool := !isSeparator n && !isBlankPoint n

theorem isBlankPoint_of_isPlain {n : Nat} (h : isPlain n = true) : isBlankPoint n = false := by
  simpa using (Bool.and_eq_true_iff.mp h).2

/-- Whether a word of a table has more than one number, and plain ones only. -/
def isPlainWord (w : List Nat) : Bool := 2 ≤ w.length && w.all isPlain

/-- Code points between the blanks or beyond them all are plain. -/
theorem isPlain_of_apart {n : Nat} (h : 0x1100 ≤ n ∧ n < 0x1680 ∨ 0x3000 < n) : isPlain n := by
  have hblank : isBlankPoint n = false := by
    rw [isBlankPoint, if_neg (by omega), List.any_eq_false]
    intro r hr
    simp only [wideBlanks, List.mem_cons, List.not_mem_nil, or_false] at hr
    rcases hr with rfl | rfl | rfl | rfl | rfl | rfl | rfl | rfl <;> simp <;> omega
  simp [isPlain, isSeparator_eq_false (by omega : 0x3A < n), hblank]

-- each piece is opened as a list of characters, which takes as many steps as it has characters
set_option maxRecDepth 10000 in
theorem passes_decompositionTexts :
    ∀ s ∈ decompositionTexts, passesFrom isPlainWord [] none s.toList := by
  unfold decompositionTexts
  repeat
    refine List.forall_mem_cons.mpr ⟨?_, ?_⟩
    · apply passesFrom_ofList
      decide +kernel
  exact List.forall_mem_nil _

set_option maxRecDepth 10000 in
theorem passes_compositionTexts :
    ∀ s ∈ compositionTexts, passesFrom isPlainWord [] none s.toList := by
  unfold compositionTexts
  repeat
    refine List.forall_mem_cons.mpr ⟨?_, ?_⟩
    · apply passesFrom_ofList
      decide +kernel
  exact List.forall_mem_nil _

/-! ### What normal forms are made of -/

theorem mem_insertMark {m n : Nat} {ns : List Nat} (h : m ∈ insertMark n ns) :
    m = n ∨ m ∈ ns := by
  induction ns with
  | nil => simpa [insertMark] using h
  | cons k ns ih =>
    rw [insertMark] at h
    split at h
    · rcases List.mem_cons.mp h with rfl | h
      · exact .inr List.mem_cons_self
      · exact (ih h).imp_right (List.mem_cons_of_mem _)
    · exact List.mem_cons.mp h

theorem mem_orderMarks {m : Nat} {ns : List Nat} (h : m ∈ orderMarks ns) : m ∈ ns := by
  have hstep (n : Nat) (acc : List Nat)
      (h : m ∈ if combiningClass n = 0 then n :: acc else insertMark n acc) :
      m = n ∨ m ∈ acc := by
    split at h
    · exact List.mem_cons.mp h
    · exact mem_insertMark h
  have hfold : ∀ acc, m ∈ ns.foldl
      (fun acc n => if combiningClass n = 0 then n :: acc else insertMark n acc) acc →
        m ∈ acc ∨ m ∈ ns := by
    clear h
    induction ns with
    | nil => exact fun acc h => .inl h
    | cons n ns ih =>
      intro acc h
      rcases ih _ h with h | h
      · rcases hstep n acc h with rfl | h
        · exact .inr List.mem_cons_self
        · exact .inl h
      · exact .inr (List.mem_cons_of_mem _ h)
  rw [orderMarks, List.mem_reverse] at h
  exact (hfold [] h).resolve_left List.not_mem_nil

/-- Composing keeps code points or puts compositions in their place. -/
theorem mem_composeFrom {m starter : Nat} {seen ns : List Nat}
    (h : m ∈ composeFrom starter seen ns) :
    m = starter ∨ m ∈ seen ∨ m ∈ ns ∨ ∃ a b, compose? a b = some m := by
  induction ns generalizing starter seen with
  | nil =>
    rw [composeFrom.eq_def] at h
    rcases List.mem_cons.mp h with rfl | h
    · exact .inl rfl
    · exact .inr (.inl (List.mem_reverse.mp h))
  | cons n ns ih =>
    rw [composeFrom.eq_def] at h
    dsimp only at h
    split at h
    · rename_i composite hcomposite
      rcases ih h with rfl | h | h | h
      · exact .inr (.inr (.inr ⟨_, _, (Option.ite_none_left_eq_some.mp hcomposite).2⟩))
      · exact .inr (.inl h)
      · exact .inr (.inr (.inl (List.mem_cons_of_mem _ h)))
      · exact .inr (.inr (.inr h))
    · split at h
      · rcases List.mem_cons.mp h with rfl | h
        · exact .inl rfl
        rcases List.mem_append.mp h with h | h
        · exact .inr (.inl (List.mem_reverse.mp h))
        rcases ih h with rfl | h | h | h
        · exact .inr (.inr (.inl List.mem_cons_self))
        · cases h
        · exact .inr (.inr (.inl (List.mem_cons_of_mem _ h)))
        · exact .inr (.inr (.inr h))
      · rcases ih h with rfl | h | h | h
        · exact .inl rfl
        · rcases List.mem_cons.mp h with rfl | h
          · exact .inr (.inr (.inl List.mem_cons_self))
          · exact .inr (.inl h)
        · exact .inr (.inr (.inl (List.mem_cons_of_mem _ h)))
        · exact .inr (.inr (.inr h))

/-- A normal form is made of parts of decompositions and of compositions. -/
theorem mem_normalizePoints {m : Nat} {ns : List Nat} (h : m ∈ normalizePoints ns) :
    (∃ n ∈ ns, m ∈ decompose n) ∨ ∃ a b, compose? a b = some m := by
  rw [normalizePoints] at h
  split at h
  · cases h
  · rename_i n rest hordered
    have hmem (k : Nat) (hk : k ∈ n :: rest) : ∃ n ∈ ns, k ∈ decompose n :=
      List.mem_flatMap.mp (mem_orderMarks (hordered ▸ hk))
    rcases mem_composeFrom h with rfl | h | h | h
    · exact .inl (hmem _ List.mem_cons_self)
    · cases h
    · exact .inl (hmem m (List.mem_cons_of_mem _ h))
    · exact .inr h

theorem composeFrom_ne_nil (starter : Nat) (seen ns : List Nat) :
    composeFrom starter seen ns ≠ [] := by
  induction ns generalizing starter seen with
  | nil => exact List.cons_ne_nil _ _
  | cons n ns ih =>
    rw [composeFrom.eq_def]
    dsimp only
    split
    · exact ih _ _
    · split
      · exact List.cons_ne_nil _ _
      · exact ih _ _

theorem orderMarks_ne_nil {ns : List Nat} (h : ns ≠ []) : orderMarks ns ≠ [] := by
  have hinsert (n : Nat) (ms : List Nat) : insertMark n ms ≠ [] := by
    rw [insertMark.eq_def]
    split
    · exact List.cons_ne_nil _ _
    · split <;> exact List.cons_ne_nil _ _
  have hfold : ∀ (ns acc : List Nat), acc ≠ [] ∨ ns ≠ [] → ns.foldl
      (fun acc n => if combiningClass n = 0 then n :: acc else insertMark n acc) acc ≠ [] := by
    intro ns
    induction ns with
    | nil => exact fun acc h => h.resolve_right (absurd rfl)
    | cons n ns ih =>
      refine fun acc _ => ih _ (.inl ?_)
      dsimp only
      split
      · exact List.cons_ne_nil _ _
      · exact hinsert n acc
  rw [orderMarks, ne_eq, List.reverse_eq_nil_iff]
  exact hfold ns [] (.inr h)

/-- A normal form is not empty if there is something that it is made from. -/
theorem normalizePoints_ne_nil {ns : List Nat} (h : ns.flatMap decompose ≠ []) :
    normalizePoints ns ≠ [] := by
  rw [normalizePoints]
  split
  · rename_i hordered
    exact absurd hordered (orderMarks_ne_nil h)
  · exact composeFrom_ne_nil _ _ _

/-! ### Plain normal forms -/

/-- What is found in a table is one of its words. -/
theorem mem_of_searchTable {table : Array (List Nat)} {above : List Nat → Bool} {n : Nat}
    {rest : List Nat} (h : searchTable table above = n :: rest) : n :: rest ∈ table := by
  rw [searchTable] at h
  cases hw : table[lastNotAbove table above (table.size + 1) 0 table.size]? with
  | none =>
    rw [hw] at h
    cases h
  | some w =>
    rw [hw] at h
    exact (h : w = n :: rest) ▸ Array.mem_of_getElem? hw

theorem isPlain_of_isPlainWord {w : List Nat} (h : isPlainWord w) : ∀ n ∈ w, isPlain n :=
  List.all_eq_true.mp (Bool.and_eq_true_iff.mp h).2

/-- A code point is taken apart into plain ones, or stays what it is. -/
theorem decompose_cases (n : Nat) :
    decompose n = [n] ∨ decompose n ≠ [] ∧ ∀ m ∈ decompose n, isPlain m := by
  rw [decompose]
  split
  · exact .inl rfl
  · split
    · -- a syllable is taken apart into letters, which stand between the blanks
      rename_i hsyllable
      refine .inr ⟨by simp, fun m hm => ?_⟩
      have hm : 0x1100 ≤ m ∧ m ≤ 0x11C2 := by
        simp only [List.mem_append, List.mem_cons, List.not_mem_nil, or_false] at hm
        rcases hm with (hm | hm) | hm
        · omega
        · omega
        · split at hm
          · cases hm
          · have := List.mem_singleton.mp hm
            omega
      exact isPlain_of_apart (.inl ⟨hm.1, by omega⟩)
    · split
      · rename_i m parts hsearch
        have hplain := passes_of_mem_readHexTables passes_decompositionTexts (m :: parts)
          (mem_of_searchTable hsearch)
        split
        · refine .inr ⟨?_, fun k hk => isPlain_of_isPlainWord hplain k (List.mem_cons_of_mem _ hk)⟩
          rintro rfl
          cases hplain
        · exact .inl rfl
      · exact .inl rfl

/-- Compositions are plain. -/
theorem isPlain_of_compose? {a b m : Nat} (h : compose? a b = some m) : isPlain m := by
  unfold compose? at h
  split at h
  · rw [← Option.some.inj h]
    exact isPlain_of_apart (.inr (by omega))
  · split at h
    · rw [← Option.some.inj h]
      exact isPlain_of_apart (.inr (by omega))
    · dsimp only at h
      split at h
      · rename_i x y c hsearch
        have hplain := passes_of_mem_readHexTables passes_compositionTexts [x, y, c]
          (mem_of_searchTable hsearch)
        split at h
        · rw [← Option.some.inj h]
          exact isPlain_of_isPlainWord hplain c (by simp)
        · cases h
      · cases h

/-- A character of a normal form stands in the text or is plain. -/
theorem mem_normalize {s : String} {c : Char} (h : c ∈ (normalize s).toList) :
    c ∈ s.toList ∨ isPlain c.toNat := by
  rw [normalize] at h
  split at h
  · exact .inl h
  · rw [String.toList_ofList] at h
    obtain ⟨m, hm, rfl⟩ := List.mem_map.mp h
    rw [Char.ofNat]
    by_cases hvalid : m.isValidChar
    · rw [dif_pos hvalid]
      have hplain : isPlain m → isPlain (Char.ofNatAux m hvalid).toNat := id
      rcases mem_normalizePoints hm with ⟨n, hn, hm⟩ | ⟨a, b, hm⟩
      · obtain ⟨c, hc, rfl⟩ := List.mem_map.mp hn
        rcases decompose_cases c.toNat with hself | ⟨-, hparts⟩
        · rw [hself, List.mem_singleton] at hm
          subst hm
          have hchar : Char.ofNatAux c.toNat hvalid = c := Char.toNat_inj.mp rfl
          rw [hchar]
          exact .inl hc
        · exact .inr (hplain (hparts m hm))
      · exact .inr (hplain (isPlain_of_compose? hm))
    · rw [dif_neg hvalid]
      exact .inr (by decide)

/-- Colons, dots and hash signs stand in a normal form only if they stand in the text. -/
theorem separator_notMem_normalize {s : String} {c : Char} (hc : isSeparator c.toNat = true)
    (h : c ∉ s.toList) : c ∉ (normalize s).toList := by
  intro hmem
  rcases mem_normalize hmem with hmem | hplain
  · exact h hmem
  · simp [isPlain, hc] at hplain

/-! ### Identifiers -/

/-- Whether a range beyond ASCII has no blanks in it. -/
def isApart (first last : Nat) : Bool :=
  0x80 ≤ first && wideBlanks.all fun r => last < r.1 || r.2 < first

/-- Whether a word of a table of ranges has no blanks in its range. -/
def isPlainRange : List Nat → Bool
  | [first, last] => isApart first last
  | [n] => isApart n n
  | _ => true

set_option maxRecDepth 100000 in
theorem passes_identifierStartText :
    passesFrom isPlainRange [] none identifierStartText.toList := by
  unfold identifierStartText
  apply passesFrom_ofList
  decide +kernel

set_option maxRecDepth 100000 in
theorem passes_identifierContinueText :
    passesFrom isPlainRange [] none identifierContinueText.toList := by
  unfold identifierContinueText
  apply passesFrom_ofList
  decide +kernel

/-- What is found in ranges lies in one of them. -/
theorem exists_range_of_inRanges {ranges : Array (Nat × Nat)} {n : Nat}
    (h : inRanges ranges n = true) : ∃ r ∈ ranges, r.1 ≤ n ∧ n ≤ r.2 := by
  have hfind : ∀ fuel lo hi, findRange ranges n fuel lo hi = true →
      ∃ r ∈ ranges, r.1 ≤ n ∧ n ≤ r.2 := by
    intro fuel
    induction fuel with
    | zero => exact fun lo hi h => nomatch h
    | succ fuel ih =>
      intro lo hi h
      rw [findRange] at h
      split at h
      · dsimp only at h
        split at h
        · cases h
        · rename_i first last hrange
          split at h
          · exact ih _ _ h
          · split at h
            · exact ih _ _ h
            · exact ⟨_, Array.mem_of_getElem? hrange, by omega, by omega⟩
      · cases h
  exact hfind _ _ _ h

/-- Code points in ranges without blanks are plain. -/
theorem isPlain_of_inRanges {s : String} (hs : passesFrom isPlainRange [] none s.toList) {n : Nat}
    (h : inRanges (readRanges s) n = true) : isPlain n := by
  obtain ⟨r, hr, hfirst, hlast⟩ := exists_range_of_inRanges h
  obtain ⟨w, hw, rfl⟩ := Array.mem_map.mp hr
  have hapart {first last : Nat} (hpass : isApart first last) (hn : first ≤ n ∧ n ≤ last) :
      isPlain n := by
    obtain ⟨hascii, hblanks⟩ := Bool.and_eq_true_iff.mp hpass
    have hascii := of_decide_eq_true hascii
    have hblank : isBlankPoint n = false := by
      rw [isBlankPoint, if_neg (by omega), List.any_eq_false]
      intro r hr
      have := List.all_eq_true.mp hblanks r hr
      simp only [Bool.or_eq_true, decide_eq_true_eq, Bool.and_eq_true, not_and] at this ⊢
      omega
    simp [isPlain, isSeparator_eq_false (by omega : 0x3A < n), hblank]
  have hpass := passes_of_mem_readHexTable hs w hw
  split at hfirst
  · exact hapart hpass ⟨hfirst, hlast⟩
  · exact hapart hpass ⟨hfirst, hlast⟩
  · simp only at hfirst hlast
    omega

/-- Letters, digits and the underscore are no blanks. -/
theorem isBlank_of_isAlphanum {c : Char} (hascii : c.toNat < 0x80)
    (h : (c.isAlphanum || c == '_') = true) : isBlank c = false := by
  have hall : ∀ n < 0x80, ((Char.ofNat n).isAlphanum || Char.ofNat n == '_') = true →
      isBlank (Char.ofNat n) = false := by
    decide +kernel
  have hc := hall c.toNat hascii
  rw [Char.ofNat_toNat] at hc
  exact hc h

/-- Characters of identifiers are no blanks. -/
theorem isBlank_of_isIdentifier {cs : List Char} (h : isIdentifier cs = true) :
    ∀ c ∈ cs, isBlank c = false := by
  have hstart (c : Char) (h : isIdentifierStart c = true) : isBlank c = false := by
    rw [isIdentifierStart] at h
    split at h
    · rename_i hascii
      refine isBlank_of_isAlphanum hascii ?_
      rw [Char.isAlphanum, Bool.or_assoc, Bool.or_left_comm, h, Bool.or_true]
    · exact isBlankPoint_of_isPlain (isPlain_of_inRanges passes_identifierStartText h)
  have hcontinue (c : Char) (h : isIdentifierContinue c = true) : isBlank c = false := by
    rw [isIdentifierContinue] at h
    split at h
    · rename_i hascii
      exact isBlank_of_isAlphanum hascii h
    · exact isBlankPoint_of_isPlain (isPlain_of_inRanges passes_identifierContinueText h)
  cases cs with
  | nil => exact fun c hc => nomatch hc
  | cons c rest =>
    obtain ⟨hc, hrest⟩ := Bool.and_eq_true_iff.mp h
    exact List.forall_mem_cons.mpr
      ⟨hstart c hc, fun d hd => hcontinue d (List.all_eq_true.mp hrest d hd)⟩

/-- The normal form of an identifier is not blank. -/
theorem isBlankText_normalize {cs : List Char} (h : isIdentifier cs = true) :
    isBlankText (normalize (String.ofList cs)) = false := by
  have hne : (normalize (String.ofList cs)).toList ≠ [] := by
    have hcs : cs ≠ [] := by
      rintro rfl
      cases h
    rw [normalize, String.toList_ofList]
    split
    · rwa [String.toList_ofList]
    · rw [String.toList_ofList, ne_eq, List.map_eq_nil_iff]
      refine normalizePoints_ne_nil ?_
      obtain ⟨c, rest, rfl⟩ := List.exists_cons_of_ne_nil hcs
      rw [List.map_cons, List.flatMap_cons]
      rcases decompose_cases c.toNat with hself | ⟨hparts, -⟩
      · rw [hself]
        exact List.cons_ne_nil _ _
      · exact List.append_ne_nil_of_left_ne_nil hparts _
  obtain ⟨c, rest, hname⟩ := List.exists_cons_of_ne_nil hne
  have hc : isBlank c = false := by
    rcases mem_normalize (hname ▸ List.mem_cons_self) with hc | hc
    · rw [String.toList_ofList] at hc
      exact isBlank_of_isIdentifier h c hc
    · exact isBlankPoint_of_isPlain hc
  rw [isBlankText, hname, List.all_cons, hc]
  rfl

end Concordance.Text
