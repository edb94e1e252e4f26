import Concordance.Proofs.Workspace.Reaching

/-!
# Names that are parts of paths

The names of entries are parts of the paths that lead to them: a path is read back from how it is
written, name by name. So different directories of a file tree are written differently, wherever the
file tree lies.

## Main definitions

* `Path.IsPart`: a name that is one part of a path
* `Entry.isProper`: file trees with such names

## Main results

* `Path.parts_ofText_text`: reading what was written
* `Path.text_descend_inj`: different directories are written differently
-/

namespace Concordance

namespace Path

theorem child_inj {p q : Path} {name name' : String} :
    p.child name = q.child name' ↔ p = q ∧ name = name' := by
  refine ⟨fun h => ?_, fun ⟨hp, hname⟩ => hp ▸ hname ▸ rfl⟩
  obtain ⟨proot, pparts⟩ := p
  obtain ⟨qroot, qparts⟩ := q
  simp only [child, mk.injEq] at h ⊢
  obtain ⟨hparts, hname⟩ := List.append_inj' h.2 rfl
  exact ⟨⟨h.1, hparts⟩, List.singleton_inj.mp hname⟩

theorem splitFrom_append (acc cs rest : List Char) :
    splitFrom acc (cs ++ '/' :: rest) = splitFrom acc cs ++ splitFrom [] rest := by
  induction cs generalizing acc with
  | nil => rfl
  | cons c cs ih =>
    rw [List.cons_append, splitFrom, splitFrom]
    split
    · rw [ih, List.cons_append]
    · exact ih _

/-- Parts that are joined by slashes are read one by one. -/
theorem parts_ofText_intercalate (parts : List String) :
    (ofText ("/".intercalate parts)).parts = parts.flatMap fun part => (ofText part).parts := by
  induction parts with
  | nil => rfl
  | cons part rest ih =>
    rcases rest with _ | ⟨next, rest⟩
    · simp
    · rw [List.flatMap_cons, ← ih, String.intercalate_cons_cons, ofText, ofText, ofText,
        String.toList_append, String.toList_append, List.append_assoc]
      dsimp only
      rw [← List.filter_append]
      exact congrArg _ (splitFrom_append [] _ _)

theorem parts_ofText_text {p : Path} (h : p.root = "") :
    (ofText p.text).parts = p.parts.flatMap fun part => (ofText part).parts := by
  rw [text, h]
  by_cases hparts : p.parts = []
  · rw [hparts]
    rfl
  · simp [hparts, parts_ofText_intercalate]

/-- A name that is one part of a path: it is not empty, there is no slash in it, and it is not a
single dot. -/
def IsPart (name : String) : Prop := (ofText name).parts = [name]

instance : DecidablePred IsPart := fun name =>
  inferInstanceAs (Decidable ((ofText name).parts = [name]))

theorem flatMap_parts_of_isPart {way : List String} (h : ∀ part ∈ way, IsPart part) :
    (way.flatMap fun part => (ofText part).parts) = way := by
  induction way with
  | nil => rfl
  | cons part rest ih =>
    rw [List.flatMap_cons, h part List.mem_cons_self,
      ih fun part' hpart => h part' (List.mem_cons_of_mem _ hpart)]
    rfl

/-- Different directories below a directory are written differently. -/
theorem text_descend_inj {root : Path} {way way' : List String} (h : ∀ part ∈ way, IsPart part)
    (h' : ∀ part ∈ way', IsPart part) :
    (root.descend way).text = (root.descend way').text ↔ way = way' := by
  refine ⟨fun heq => ?_, fun heq => heq ▸ rfl⟩
  -- what is read of either text is what is read of the directory, and the way
  have hread (way : List String) (h : ∀ part ∈ way, IsPart part) :
      ((root.parts ++ way).flatMap fun part => (ofText part).parts) =
        (root.parts.flatMap fun part => (ofText part).parts) ++ way := by
    rw [List.flatMap_append, flatMap_parts_of_isPart h]
  have hsame : ((root.parts ++ way).flatMap fun part => (ofText part).parts) =
      (root.parts ++ way').flatMap fun part => (ofText part).parts := by
    by_cases hroot : root.root = ""
    · have hparts := congrArg (fun s => (ofText s).parts) heq
      simp only [parts_ofText_text (p := root.descend _) hroot] at hparts
      exact hparts
    · rw [← parts_ofText_intercalate, ← parts_ofText_intercalate]
      simp only [text, descend, hroot, decide_false, Bool.false_and] at heq
      rw [(String.append_right_inj root.root).mp heq]
  rw [hread way h, hread way' h'] at hsame
  exact List.append_cancel_left hsame

end Path

namespace Entry

mutual

/-- Whether the names in a file tree are names that entries can have. -/
def isProper : Entry → Bool
  | .file _ => true
  | .directory entries => areProper entries

/-- Whether the names of entries, and of those within them, are names that entries can have. -/
def areProper : List (String × Entry) → Bool
  | [] => true
  | (name, e) :: rest => decide (Path.IsPart name) && e.isProper && areProper rest

end

theorem isProper_of_mem {entries : List (String × Entry)} (h : areProper entries)
    {x : String × Entry} (hx : x ∈ entries) : Path.IsPart x.1 ∧ x.2.isProper := by
  induction entries with
  | nil => cases hx
  | cons y rest ih =>
    rw [areProper] at h
    simp only [Bool.and_eq_true, decide_eq_true_eq] at h
    rcases List.mem_cons.mp hx with rfl | hx
    · exact h.1
    · exact ih h.2 hx

/-- The names on a way through a file tree are parts of paths. -/
theorem isPart_of_holds {tree e : Entry} (h : tree.isProper) {way : List String}
    (hholds : tree.Holds way e) : ∀ part ∈ way, Path.IsPart part := by
  induction way generalizing tree with
  | nil => exact fun part hpart => absurd hpart List.not_mem_nil
  | cons first rest ih =>
    obtain ⟨inner, hmem, hholds⟩ := hholds
    cases tree with
    | file octets => cases hmem
    | directory entries =>
      rw [isProper] at h
      obtain ⟨hfirst, hinner⟩ := isProper_of_mem h hmem
      intro part hpart
      rcases List.mem_cons.mp hpart with rfl | hpart
      · exact hfirst
      · exact ih hinner hholds part hpart

end Entry

end Concordance
