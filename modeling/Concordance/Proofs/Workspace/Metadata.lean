import Concordance.Workspace.Metadata

/-!
# Metadata that can be read

Metadata files that do not follow their grammar say nothing, and that is all. What a project
directory says fails for no other reason than these: the TOML file is no text, holds a whole number
that is too long, or has something else where a table is asked for; or the set-up script holds the
null character, or gives a whole number as a name that is too long.

## Main definitions

* `Metadata.WellShaped`: documents with tables where they are asked for
* `Metadata.TomlLegible`, `Metadata.ScriptLegible`, `Metadata.Legible`: files and directories that
  can be read

## Main results

* `Metadata.exists_ofDirectory_iff`: metadata is read exactly where it is legible
-/

namespace Concordance

open Syntax

/-! ### Results -/

section

variable {ε α β : Type}

theorem exists_bind_eq_ok_iff {x : Except ε α} {f : α → Except ε β} :
    (∃ b, (x >>= f) = .ok b) ↔ ∃ a, x = .ok a ∧ ∃ b, f a = .ok b := by
  cases x with
  | error e =>
    constructor
    · rintro ⟨_, ⟨⟩⟩
    · rintro ⟨_, ⟨⟩, _⟩
  | ok a =>
    refine ⟨fun ⟨b, h⟩ => ⟨a, rfl, b, h⟩, ?_⟩
    rintro ⟨_, ⟨⟩, h⟩
    exact h

/-- Steps that succeed whatever came before succeed together if each of them does. -/
theorem exists_foldlM_eq_ok_iff {f : β → α → Except ε β} {P : α → Prop}
    (h : ∀ b a, (∃ b', f b a = .ok b') ↔ P a) (l : List α) (b : β) :
    (∃ b', l.foldlM f b = .ok b') ↔ ∀ a ∈ l, P a := by
  induction l generalizing b with
  | nil => exact ⟨nofun, fun _ => ⟨b, rfl⟩⟩
  | cons a l ih =>
    rw [List.foldlM_cons, exists_bind_eq_ok_iff, List.forall_mem_cons, ← h b a]
    constructor
    · rintro ⟨b', hb', hrest⟩
      exact ⟨⟨b', hb'⟩, (ih b').mp hrest⟩
    · rintro ⟨⟨b', hb'⟩, hrest⟩
      exact ⟨b', hb', (ih b').mpr hrest⟩

end

namespace Metadata

/-! ### TOML -/

/-- Whether a value is a table. -/
def isTable : Toml.Value → Bool
  | .table _ => true
  | _ => false

/-- The value under a key, if there is one. -/
def valueAt? (v : Toml.Value) (key : String) : Option Toml.Value :=
  match v with
  | .table fields => Table.find? key fields
  | _ => none

/-- The value under a key; an empty table if it is missing. -/
def valueAt (v : Toml.Value) (key : String) : Toml.Value := (valueAt? v key).getD (.table [])

/-- Whether there is a value with content under a key. -/
def hasContent (v : Toml.Value) (key : String) : Bool := (nonEmpty (valueAt? v key)).isSome

/-- A document has tables where they are asked for: under `project` and under `tool`, and under
`poetry` in the latter unless the former says everything. -/
structure WellShaped (document : Toml.Value) : Prop where
  project : isTable (valueAt document "project")
  tool : isTable (valueAt document "tool")
  poetry : isTable (valueAt (valueAt document "tool") "poetry") ∨
    hasContent (valueAt document "project") "name" ∧
      (hasContent (valueAt document "project") "scripts" ∨
        hasContent (valueAt document "project") "gui-scripts")

theorem field?_eq {v : Toml.Value} (h : isTable v) (key : String) :
    v.field? key = .ok (valueAt? v key) := by
  cases v <;> first | rfl | cases h

theorem exists_field?_iff {v : Toml.Value} {key : String} :
    (∃ found, v.field? key = .ok found) ↔ isTable v := by
  refine ⟨?_, fun h => ⟨_, field?_eq h key⟩⟩
  rintro ⟨found, h⟩
  cases v <;> first | rfl | cases h

theorem exists_tableIn_iff {v : Toml.Value} {key : String} {α : Type}
    {f : Toml.Value → Except Failure α} :
    (∃ a, (tableIn v key >>= f) = .ok a) ↔ isTable v ∧ ∃ a, f (valueAt v key) = .ok a := by
  rw [exists_bind_eq_ok_iff]
  constructor
  · rintro ⟨found, hfound, h⟩
    cases v with
    | table fields =>
      cases hfound
      exact ⟨rfl, h⟩
    | _ => cases hfound
  · rintro ⟨hv, h⟩
    exact ⟨_, by rw [tableIn, field?_eq hv]; rfl, h⟩

theorem exists_firstOf_cons_iff {v : Toml.Value} {key : String}
    {rest : List (Toml.Value × String)} :
    (∃ found, firstOf ((v, key) :: rest) = .ok found) ↔
      isTable v ∧ (hasContent v key ∨ ∃ found, firstOf rest = .ok found) := by
  rw [firstOf, exists_bind_eq_ok_iff]
  constructor
  · rintro ⟨found, hfound, h⟩
    have hv : isTable v := exists_field?_iff.mp ⟨found, hfound⟩
    rw [field?_eq hv] at hfound
    cases hfound
    refine ⟨hv, ?_⟩
    cases hcontent : nonEmpty (valueAt? v key) with
    | some _ => exact .inl (by rw [hasContent, hcontent]; rfl)
    | none => exact .inr (by simpa [hcontent] using h)
  · rintro ⟨hv, h⟩
    refine ⟨_, field?_eq hv key, ?_⟩
    cases hcontent : nonEmpty (valueAt? v key) with
    | some value => exact ⟨_, rfl⟩
    | none => exact h.resolve_left (by rw [hasContent, hcontent]; exact nofun)

/-- A document is read exactly if it has tables where they are asked for. -/
theorem exists_ofFields_iff (fields : List (String × Toml.Value)) :
    (∃ m, ofFields (.table fields) = .ok m) ↔ WellShaped (.table fields) := by
  have hend : ∃ found, firstOf [] = .ok found := ⟨none, rfl⟩
  have hpure : ∀ m : Metadata, ∃ m', (pure m : Except Failure Metadata) = .ok m' :=
    fun m => ⟨m, rfl⟩
  have hroot : isTable (.table fields) := rfl
  rw [ofFields, exists_tableIn_iff, exists_tableIn_iff, exists_tableIn_iff, exists_bind_eq_ok_iff]
  constructor
  · rintro ⟨-, -, htool, name, hname, hscripts⟩
    obtain ⟨scripts, hscripts, -⟩ := exists_bind_eq_ok_iff.mp hscripts
    obtain ⟨hproject, hname⟩ := exists_firstOf_cons_iff.mp ⟨name, hname⟩
    obtain ⟨-, hscripts⟩ := exists_firstOf_cons_iff.mp ⟨scripts, hscripts⟩
    refine ⟨hproject, htool, ?_⟩
    rcases hname with hname | hname
    · rcases hscripts with hscripts | hscripts
      · exact .inr ⟨hname, .inl hscripts⟩
      · rcases (exists_firstOf_cons_iff.mp hscripts).2 with hscripts | hscripts
        · exact .inr ⟨hname, .inr hscripts⟩
        · exact .inl (exists_firstOf_cons_iff.mp hscripts).1
    · exact .inl (exists_firstOf_cons_iff.mp hname).1
  · rintro ⟨hproject, htool, hpoetry⟩
    obtain ⟨name, hname⟩ := exists_firstOf_cons_iff.mpr ⟨hproject,
      hpoetry.symm.imp And.left fun h => exists_firstOf_cons_iff.mpr ⟨h, .inr hend⟩⟩
    refine ⟨hroot, hroot, htool, name, hname, exists_bind_eq_ok_iff.mpr ?_⟩
    suffices h : ∃ scripts, firstOf _ = .ok scripts from h.imp fun _ h => ⟨h, hpure _⟩
    refine exists_firstOf_cons_iff.mpr ⟨hproject, ?_⟩
    rcases hpoetry with hpoetry | ⟨-, hscripts | hscripts⟩
    · exact .inr (exists_firstOf_cons_iff.mpr ⟨hproject,
        .inr (exists_firstOf_cons_iff.mpr ⟨hpoetry, .inr hend⟩)⟩)
    · exact .inl hscripts
    · exact .inr (exists_firstOf_cons_iff.mpr ⟨hproject, .inl hscripts⟩)

theorem wellShaped_nil : WellShaped (.table []) where
  project := rfl
  tool := rfl
  poetry := .inl rfl

/-- A TOML file can be read: it is a text, in which no whole number is too long, and if it follows
the grammar, it has tables where they are asked for. -/
def TomlLegible (octets : List UInt8) : Prop :=
  ∃ cs, Text.Utf8.decode octets = .ok cs ∧
    (∀ digits, Toml.parse cs ≠ .error (.longNumber digits)) ∧
    ∀ fields, Toml.parse cs = .ok fields → WellShaped (.table fields)

theorem exists_ofToml_iff {octets : List UInt8} :
    (∃ m, ofToml octets = .ok m) ↔ TomlLegible octets := by
  unfold ofToml TomlLegible
  cases Text.Utf8.decode octets with
  | error f =>
    constructor
    · rintro ⟨_, ⟨⟩⟩
    · rintro ⟨_, ⟨⟩, _⟩
  | ok cs =>
    cases hparse : Toml.parse cs with
    | ok fields =>
      simpa [hparse] using exists_ofFields_iff fields
    | error fault =>
      cases fault with
      | malformed => simpa [hparse] using (exists_ofFields_iff []).mpr wellShaped_nil
      | longNumber digits => simp [hparse]

/-! ### Set-up scripts -/

/-- The literal that an argument of a call gives as a name. -/
def nameLiteral? : Node → Option Literal
  | .keyword _ (some "name") (.constant _ literal) => some literal
  | _ => none

/-- The literals that a node gives as names, if it is a call of the set-up function. -/
def nameLiterals : Node → List Literal
  | .call _ callee _ keywords => if isSetup callee then keywords.filterMap nameLiteral? else []
  | _ => []

/-- Whether a literal can be written as a text. -/
def isWritable : Literal → Bool
  | .int n => Decimal.isWritable n
  | _ => true

theorem exists_textOf_iff (literal : Literal) :
    (∃ s, textOf literal = .ok s) ↔ isWritable literal := by
  cases literal with
  | int n => by_cases h : Decimal.isWritable n <;> simp [textOf, isWritable, h]
  | _ => exact ⟨fun _ => rfl, fun _ => ⟨_, rfl⟩⟩

theorem exists_addArgument_iff (m : Metadata) (n : Node) :
    (∃ m', addArgument m n = .ok m') ↔ ∀ literal ∈ nameLiteral? n, isWritable literal := by
  unfold addArgument nameLiteral?
  split
  · split
    · rename_i literal
      simp only [Option.mem_some_iff, forall_eq', ← exists_textOf_iff literal]
      cases textOf literal <;> simp [Except.map]
    all_goals simp_all
  · refine ⟨fun _ literal h => ?_, fun _ => ⟨m, rfl⟩⟩
    split at h <;> simp_all

theorem exists_addCall_iff (m : Metadata) (n : Node) :
    (∃ m', addCall m n = .ok m') ↔ ∀ literal ∈ nameLiterals n, isWritable literal := by
  cases n with
  | call _ callee _ keywords =>
    rw [addCall, nameLiterals]
    by_cases hcallee : isSetup callee
    · rw [if_pos hcallee, if_pos hcallee, exists_foldlM_eq_ok_iff exists_addArgument_iff]
      simp only [List.mem_filterMap, Option.mem_def]
      constructor
      · rintro h literal ⟨n, hn, hl⟩
        exact h n hn literal hl
      · intro h n hn literal hl
        exact h literal ⟨n, hn, hl⟩
    · simp [hcallee]
  | _ => simp [addCall, nameLiterals]

/-- A set-up script can be read: if it is a text, that text does not hold the null character, and
the names that it gives can be written. -/
def ScriptLegible (octets : List UInt8) : Prop :=
  ∀ cs, Text.Utf8.decode octets = .ok cs →
    '\x00' ∉ cs ∧ ∀ body, parseModule (String.ofList cs) = .ok body →
      ∀ n ∈ nodesOf body, ∀ literal ∈ nameLiterals n, isWritable literal

theorem exists_ofScript_iff {octets : List UInt8} :
    (∃ m, ofScript octets = .ok m) ↔ ScriptLegible octets := by
  unfold ofScript ScriptLegible
  cases Text.Utf8.decode octets with
  | error f => exact ⟨fun _ => nofun, fun _ => ⟨{}, rfl⟩⟩
  | ok cs =>
    have hnull : parseModule (String.ofList cs) = .error .nullCharacter ↔ _ :=
      readSource_eq_nullCharacter_iff
    rw [String.toList_ofList] at hnull
    cases hparse : parseModule (String.ofList cs) with
    | ok body =>
      rw [hparse] at hnull
      simpa [hparse, ← hnull] using exists_foldlM_eq_ok_iff exists_addCall_iff (nodesOf body) {}
    | error fault =>
      rw [hparse] at hnull
      cases fault with
      | nullCharacter => simp [← hnull, hparse]
      | malformed => simp [← hnull, hparse]

/-! ### Directories -/

/-- The metadata files of a directory can be read. -/
structure Legible (directory : Entry) : Prop where
  toml : ∀ octets ∈ directory.fileIn? tomlName, TomlLegible octets
  script : ∀ octets ∈ directory.fileIn? scriptName, ScriptLegible octets

/-- What a metadata file says; nothing if it is missing. -/
def ofFile? (read : List UInt8 → Except Failure Metadata) (file : Option (List UInt8)) :
    Except Failure Metadata :=
  match file with
  | some octets => read octets
  | none => .ok {}

theorem exists_ofFile?_iff {read : List UInt8 → Except Failure Metadata}
    {file : Option (List UInt8)} :
    (∃ m, ofFile? read file = .ok m) ↔ ∀ octets ∈ file, ∃ m, read octets = .ok m := by
  cases file with
  | none => exact ⟨fun _ => nofun, fun _ => ⟨{}, rfl⟩⟩
  | some octets => simp [ofFile?]

theorem ofDirectory_eq (directory : Entry) :
    ofDirectory directory = (do
      let first ← ofFile? ofToml (directory.fileIn? tomlName)
      let second ← ofFile? ofScript (directory.fileIn? scriptName)
      pure ⟨first.name.or (nonEmpty second.name), first.hasScripts || second.hasScripts⟩) := by
  unfold ofDirectory ofFile?
  cases directory.fileIn? tomlName <;> cases directory.fileIn? scriptName <;> rfl

/-- What a directory says is found exactly if its metadata files can be read. -/
theorem exists_ofDirectory_iff {directory : Entry} :
    (∃ m, ofDirectory directory = .ok m) ↔ Legible directory := by
  rw [ofDirectory_eq, exists_bind_eq_ok_iff]
  constructor
  · rintro ⟨first, hfirst, hrest⟩
    obtain ⟨second, hsecond, -⟩ := exists_bind_eq_ok_iff.mp hrest
    exact
      { toml := fun octets ho => exists_ofToml_iff.mp (exists_ofFile?_iff.mp ⟨_, hfirst⟩ octets ho)
        script := fun octets ho =>
          exists_ofScript_iff.mp (exists_ofFile?_iff.mp ⟨_, hsecond⟩ octets ho) }
  · intro h
    obtain ⟨first, hfirst⟩ := exists_ofFile?_iff.mpr fun octets ho =>
      exists_ofToml_iff.mpr (h.toml octets ho)
    obtain ⟨second, hsecond⟩ := exists_ofFile?_iff.mpr fun octets ho =>
      exists_ofScript_iff.mpr (h.script octets ho)
    exact ⟨first, hfirst, exists_bind_eq_ok_iff.mpr ⟨second, hsecond, _, rfl⟩⟩

instance : DecidablePred Legible := fun directory =>
  decidable_of_iff ((ofDirectory directory).isOk = true) <| by
    rw [← exists_ofDirectory_iff]
    cases ofDirectory directory <;> simp [Except.isOk, Except.toBool]

end Metadata

end Concordance
