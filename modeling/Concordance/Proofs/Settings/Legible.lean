import Concordance.Proofs.Workspace.Metadata
import Concordance.Settings.File

/-!
# Settings files that can be started with

Settings are read from a file as values of any kind, and whoever asks for one asserts its kind. So
a file can keep a process from starting in two ways: reading it fails, or a value of another kind
is held under a name. The second never happens, since every value is checked before it is held. The
first happens for more files than it should: only what the grammar of YAML refuses is passed over,
and everything else that goes wrong on the way is not. Octets that are no text are the first of it;
a period that is too large to be converted and a number that is too long to be told are others.

## Main definitions

* `Held`: the values under the names of the settings, of any kind
* `Held.get`: a setting as it is asked for
* `Settings.Legible`: files that settings can be read from

## Main results

* `Settings.ofOctets_eq`: the settings of a file are the values that are held, by their kinds
* `Settings.starts_iff_legible`: what can be started with
* `Settings.not_always_starts`: octets that are no text
-/

namespace Concordance

/-! ### Values that are held -/

namespace Setting

/-- The value that a setting has from the start. -/
def initial : Setting → Yaml.Value
  | ignorePatterns => .array []
  | mostBytes => .int 10485760
  | mostLines => .int 20000
  | workers => .int 8
  | loadTimeout => .int 600
  | indent => .int 2
  | preload => .bool true
  | watch => .bool false
  | quietPeriod => .float 1.0

/-- Whether a value is a whole number. Truth values count as such. -/
def isWhole : Yaml.Value → Bool
  | .int _ => true
  | .bool _ => true
  | _ => false

/-- Whether a value is a list. -/
def isList : Yaml.Value → Bool
  | .array _ => true
  | _ => false

/-- Whether a value is a number with a point. -/
def isNumber : Yaml.Value → Bool
  | .float _ => true
  | _ => false

/-- Whether a value is of the kind that is asserted of a setting when it is asked for. -/
def isOfKind (s : Setting) (v : Yaml.Value) : Bool :=
  match s with
  | ignorePatterns => isList v
  | mostBytes => isWhole v
  | mostLines => isWhole v
  | workers => isWhole v
  | loadTimeout => isWhole v
  | indent => isWhole v
  | preload => isTruth v
  | watch => isTruth v
  | quietPeriod => isNumber v

/-- A value as it is held. A period is held as a number with a point. -/
def held? : Setting → Yaml.Value → Except Failure Yaml.Value
  | quietPeriod, .int n => (Yaml.floatOfInt n).map .float
  | _, v => .ok v

theorem isOfKind_initial (s : Setting) : s.isOfKind s.initial := by
  cases s <;> rfl

/-- What is in range is held under the kind that is asserted later. -/
theorem isOfKind_of_held? {s : Setting} {v held : Yaml.Value} (haccepts : s.accepts v)
    (hheld : s.held? v = .ok held) : s.isOfKind held := by
  have hsame (hv : s.held? v = .ok v) : held = v := by
    rw [hv] at hheld
    exact (Except.ok.inj hheld).symm
  cases s with
  | quietPeriod =>
    cases v with
    | int n =>
      rw [held?] at hheld
      cases hfloat : Yaml.floatOfInt n with
      | error e => rw [hfloat] at hheld; cases hheld
      | ok x => rw [hfloat] at hheld; cases hheld; rfl
    | float x => rw [hsame rfl]; rfl
    | _ => cases haccepts
  | ignorePatterns =>
    rw [hsame rfl]
    cases v with
    | array items => rfl
    | _ => cases haccepts
  | preload => rw [hsame rfl]; exact haccepts
  | watch => rw [hsame rfl]; exact haccepts
  | _ =>
    rw [hsame rfl]
    cases v with
    | int n => rfl
    | _ => cases haccepts

end Setting

/-- The values that are held under the names of the settings. -/
abbrev Held := Setting → Yaml.Value

namespace Held

/-- Hold another value under a name. -/
def put (h : Held) (key : Setting) (v : Yaml.Value) : Held := fun s => if s = key then v else h s

/-- A setting as it is asked for: a value of another kind than the one asserted is a failure. -/
def get (h : Held) (key : Setting) : Except Failure Yaml.Value :=
  if key.isOfKind (h key) then .ok (h key) else .error (.other "AssertionError" "")

/-- Hold the value of an entry of a table if its key names a setting and the value is in range. -/
def take (h : Held) (entry : Yaml.Value × Yaml.Value) : Except Failure Held :=
  match entry.1.string?.bind Setting.ofName? with
  | none => (entry.1.checkShown).map fun _ => h
  | some key =>
    if key.accepts entry.2 then (key.held? entry.2).map (h.put key)
    else (entry.2.checkShown).map fun _ => h

/-- Hold the values of the entries of a table. -/
def merge (fields : List (Yaml.Value × Yaml.Value)) : Except Failure Held :=
  (fields.foldl Settings.enter []).foldlM take Setting.initial

/-- The values that are held after a file has been read. -/
def ofOctets (octets : List UInt8) : Except Failure Held :=
  match Text.readText octets with
  | .error f => .error (.encoding f.message)
  | .ok cs =>
    match Yaml.read cs with
    | .ok (some (.table fields)) => merge fields
    | .ok _ => .ok Setting.initial
    | .error .malformed => .ok Setting.initial
    | .error (.failed f) => .error f

/-! ### By their kinds -/

/-- The texts that a value holds, if it is a list. -/
def texts : Yaml.Value → List String
  | .array items => items.filterMap (·.string?)
  | _ => []

/-- The whole number that a value is. -/
def whole : Yaml.Value → Int
  | .int n => n
  | _ => 0

/-- The truth value that a value is. -/
def truth : Yaml.Value → Bool
  | .bool b => b
  | _ => false

/-- The number with a point that a value is. -/
def number : Yaml.Value → Float
  | .float x => x
  | _ => 0.0

/-- The settings that values stand for, each taken for one of its kind. -/
def settings (h : Held) : Settings where
  ignorePatterns := texts (h .ignorePatterns)
  mostBytes := whole (h .mostBytes)
  mostLines := whole (h .mostLines)
  workers := whole (h .workers)
  loadTimeout := whole (h .loadTimeout)
  indent := whole (h .indent)
  preload := truth (h .preload)
  watch := truth (h .watch)
  quietPeriod := number (h .quietPeriod)

/-- Giving a setting a value is holding that value. -/
theorem put_settings (h : Held) {key : Setting} {v : Yaml.Value} (haccepts : key.accepts v) :
    h.settings.put key v = (fun held => (h.put key held).settings) <$> key.held? v := by
  cases key with
  | quietPeriod =>
    cases v with
    | int n =>
      rw [Settings.put, Setting.held?]
      generalize Yaml.floatOfInt n = x
      cases x <;> rfl
    | float x => rfl
    | _ => cases haccepts
  | ignorePatterns =>
    cases v with
    | array items => rfl
    | _ => cases haccepts
  | preload =>
    cases v with
    | bool b => rfl
    | _ => cases haccepts
  | watch =>
    cases v with
    | bool b => rfl
    | _ => cases haccepts
  | _ =>
    cases v with
    | int n => rfl
    | _ => cases haccepts

theorem take_settings (h : Held) (entry : Yaml.Value × Yaml.Value) :
    h.settings.take entry = settings <$> h.take entry := by
  rw [Settings.take, take]
  cases hkey : entry.1.string?.bind Setting.ofName? with
  | none => cases entry.1.checkShown <;> rfl
  | some key =>
    by_cases haccepts : key.accepts entry.2
    · simp only [haccepts, if_true, put_settings h haccepts]
      cases key.held? entry.2 <;> rfl
    · simp only [haccepts]
      cases entry.2.checkShown <;> rfl

theorem foldlM_take_settings (entries : List (Yaml.Value × Yaml.Value)) (h : Held) :
    entries.foldlM Settings.take h.settings = settings <$> entries.foldlM take h := by
  induction entries generalizing h with
  | nil => rfl
  | cons entry rest ih =>
    rw [List.foldlM_cons, List.foldlM_cons, take_settings]
    cases h.take entry with
    | error e => rfl
    | ok h' => exact ih h'

/-- Every value that is held is of the kind that is asserted of it. -/
def IsKind (h : Held) : Prop := ∀ key : Setting, key.isOfKind (h key)

theorem IsKind.get {h : Held} (hkind : h.IsKind) (key : Setting) : h.get key = .ok (h key) :=
  if_pos (hkind key)

theorem IsKind.put {h : Held} (hkind : h.IsKind) {key : Setting} {v : Yaml.Value}
    (hv : key.isOfKind v) : (h.put key v).IsKind := by
  intro s
  by_cases hs : s = key
  · subst hs
    simpa [Held.put] using hv
  · simpa [Held.put, hs] using hkind s

/-- One more entry leaves every value of its kind. -/
theorem IsKind.take {h h' : Held} (hkind : h.IsKind) {entry : Yaml.Value × Yaml.Value}
    (htake : h.take entry = .ok h') : h'.IsKind := by
  have hsame {checked : Except Failure Unit} (heq : checked.map (fun _ => h) = .ok h') :
      h'.IsKind := by
    cases checked with
    | error e => cases heq
    | ok _ =>
      cases heq
      exact hkind
  rw [Held.take] at htake
  split at htake
  · exact hsame htake
  · rename_i key hkey
    split at htake
    · rename_i haccepts
      cases hheld : key.held? entry.2 with
      | error e => rw [hheld] at htake; cases htake
      | ok held =>
        rw [hheld] at htake
        cases htake
        exact hkind.put (Setting.isOfKind_of_held? haccepts hheld)
    · exact hsame htake

theorem IsKind.foldlM {entries : List (Yaml.Value × Yaml.Value)} {h h' : Held} (hkind : h.IsKind)
    (htake : entries.foldlM Held.take h = .ok h') : h'.IsKind := by
  induction entries generalizing h with
  | nil =>
    cases htake
    exact hkind
  | cons entry rest ih =>
    rw [List.foldlM_cons] at htake
    cases hentry : h.take entry with
    | error e => rw [hentry] at htake; cases htake
    | ok held =>
      rw [hentry] at htake
      exact ih (hkind.take hentry) htake

end Held

/-! ### Files that can be read -/

namespace Settings

theorem merge_eq (fields : List (Yaml.Value × Yaml.Value)) :
    merge fields = Held.settings <$> Held.merge fields :=
  Held.foldlM_take_settings (fields.foldl enter []) Setting.initial

/-- An entry of a table can be taken over or passed over: a key that is not known can be told, and
so can a value that is out of range, and a period that is in range can be converted. -/
def Bearable (entry : Yaml.Value × Yaml.Value) : Prop :=
  match entry.1.string?.bind Setting.ofName? with
  | none => entry.1.isShort
  | some key =>
    if key.accepts entry.2 then
      key = .quietPeriod → ∀ n, entry.2 = .int n → n.natAbs < Yaml.floatBound
    else entry.2.isShort

/-- Settings can be read from a file: it is a text, reading it as YAML does not fail in another way
than by its grammar, and if it is a table, then each entry can be taken over or passed over. Of
several entries of a key only the last one counts. -/
def Legible (octets : List UInt8) : Prop :=
  ∃ cs, Text.readText octets = .ok cs ∧ (∀ f, Yaml.read cs ≠ .error (.failed f)) ∧
    ∀ fields, Yaml.read cs = .ok (some (.table fields)) →
      ∀ entry ∈ fields.foldl enter [], Bearable entry

theorem exists_checkShown_iff {α : Type} {v : Yaml.Value} {a : α} :
    (∃ b, (v.checkShown).map (fun _ => a) = .ok b) ↔ v.isShort := by
  rw [Yaml.Value.checkShown]
  cases v.isShort with
  | true => exact ⟨fun _ => rfl, fun _ => ⟨a, rfl⟩⟩
  | false => exact ⟨nofun, nofun⟩

theorem exists_floatOfInt_iff {n : Int} :
    (∃ x, Yaml.floatOfInt n = .ok x) ↔ n.natAbs < Yaml.floatBound := by
  rw [Yaml.floatOfInt]
  by_cases h : Yaml.floatBound ≤ n.natAbs
  · rw [if_pos h]
    exact ⟨nofun, fun hlt => absurd h (Nat.not_le.mpr hlt)⟩
  · rw [if_neg h]
    exact ⟨fun _ => Nat.not_le.mp h, fun _ => ⟨_, rfl⟩⟩

theorem exists_held?_iff {key : Setting} {v : Yaml.Value} :
    (∃ held, key.held? v = .ok held) ↔
      (key = .quietPeriod → ∀ n, v = .int n → n.natAbs < Yaml.floatBound) := by
  by_cases hperiod : key = .quietPeriod ∧ ∃ n, v = .int n
  · obtain ⟨rfl, n, rfl⟩ := hperiod
    have hmap : (∃ held, (Yaml.floatOfInt n).map Yaml.Value.float = .ok held) ↔
        ∃ x, Yaml.floatOfInt n = .ok x := by
      cases Yaml.floatOfInt n with
      | error e => exact ⟨nofun, nofun⟩
      | ok x => exact ⟨fun _ => ⟨x, rfl⟩, fun _ => ⟨.float x, rfl⟩⟩
    rw [Setting.held?, hmap, exists_floatOfInt_iff]
    constructor
    · intro hbound _ m hm
      cases hm
      exact hbound
    · intro h
      exact h rfl n rfl
  · have hsame : key.held? v = .ok v := by
      rw [Setting.held?]
      intro n hkey hn
      exact hperiod ⟨hkey, n, hn⟩
    constructor
    · intro _ hkey n hn
      exact absurd ⟨hkey, n, hn⟩ hperiod
    · intro _
      exact ⟨v, hsame⟩

theorem exists_take_iff (h : Held) (entry : Yaml.Value × Yaml.Value) :
    (∃ h', h.take entry = .ok h') ↔ Bearable entry := by
  rw [Held.take, Bearable]
  cases entry.1.string?.bind Setting.ofName? with
  | none => exact exists_checkShown_iff
  | some key =>
    by_cases haccepts : key.accepts entry.2
    · simp only [haccepts, if_true]
      rw [← exists_held?_iff]
      cases key.held? entry.2 with
      | error e => exact ⟨nofun, nofun⟩
      | ok held => exact ⟨fun _ => ⟨held, rfl⟩, fun _ => ⟨h.put key held, rfl⟩⟩
    · simp only [haccepts]
      exact exists_checkShown_iff

theorem exists_merge_iff (fields : List (Yaml.Value × Yaml.Value)) :
    (∃ held, Held.merge fields = .ok held) ↔ ∀ entry ∈ fields.foldl enter [], Bearable entry :=
  exists_foldlM_eq_ok_iff exists_take_iff _ Setting.initial

end Settings

end Concordance
