import Concordance.Proofs.Decimal.Positive
import Concordance.Proofs.Settings.Legible

/-!
# What a table makes of the settings

Merging a table goes through its entries one by one and passes over what it does not know or does
not accept. What comes of it can be said without the steps: every setting has the value that it is
given under its name if that one is in range, and keeps the one from the start otherwise. So the
other entries do not matter, nor does the order they are in.

Two things make that hold. Entering the pairs of a table leaves one entry of each name, the last
one, so that no setting is given a value twice. And an entry only changes the setting that it names.

The values that are kept can be checked once more: each of them is in range itself. For a period
that is given as a whole number, that is a statement about rounding, since it is kept as a number
with a point.

There is one way in which merging fails although no period is too large: what is passed over is
told, and a whole number can be too long for that.

## Main definitions

* `Setting.settled`: the value of a setting by the value that it is given
* `Settings.lastGiven?`: the value that a setting is given
* `Kept`: the values as they are kept, in a table by name

## Main results

* `Settings.find?_foldl_enter`, `Settings.nodup_names_foldl_enter`: tables have one entry of a name
* `Held.settled_of_merge`: the value of each setting after a table has been merged
* `Kept.merge_eq`: no name is added and none is lost
* `Settings.merges_settled_iff`: merging a table, and when it fails
* `Settings.not_always_merges`: a number that is too long to be told
-/

namespace Concordance

/-! ### The value of one setting -/

namespace Setting

/-- The value of a setting by the value that it is given: the one given, as it is held, if it is in
range, and otherwise the one from the start. -/
def settled (s : Setting) : Option Yaml.Value → Except Failure Yaml.Value
  | none => .ok s.initial
  | some v => if s.accepts v then s.held? v else .ok s.initial

/-- A name belongs to one setting. -/
theorem ofName?_eq_some_iff {name : String} {s : Setting} :
    ofName? name = some s ↔ name = s.name := by
  constructor
  · intro h
    have hname : s.name = name := by simpa using List.find?_some h
    exact hname.symm
  · rintro rfl
    exact ofName?_name s

theorem name_injective {s t : Setting} (h : s.name = t.name) : s = t :=
  Option.some.inj ((ofName?_name s).symm.trans (h ▸ ofName?_name t))

/-- What a setting has from the start is in range. -/
theorem accepts_initial (s : Setting) : s.accepts s.initial := by
  cases s <;> decide +kernel

/-- What is held of a value in range is in range. -/
theorem accepts_of_held? {s : Setting} {v held : Yaml.Value} (haccepts : s.accepts v)
    (hheld : s.held? v = .ok held) : s.accepts held := by
  by_cases hperiod : s = .quietPeriod ∧ ∃ n, v = .int n
  · obtain ⟨rfl, n, rfl⟩ := hperiod
    rw [held?] at hheld
    cases hfloat : Yaml.floatOfInt n with
    | error e => rw [hfloat] at hheld; cases hheld
    | ok x =>
      rw [hfloat] at hheld
      cases hheld
      have hn : 0 < n := of_decide_eq_true haccepts
      exact decide_eq_true (Yaml.floatOfInt_pos hn hfloat)
  · have hsame : s.held? v = .ok v := by
      rw [held?]
      intro n hkey hn
      exact hperiod ⟨hkey, n, hn⟩
    rw [hsame] at hheld
    cases hheld
    exact haccepts

/-- Whatever a setting is given, its value is in range. -/
theorem accepts_of_settled {s : Setting} {given : Option Yaml.Value} {v : Yaml.Value}
    (h : s.settled given = .ok v) : s.accepts v := by
  cases given with
  | none =>
    cases h
    exact accepts_initial s
  | some w =>
    rw [settled] at h
    split at h
    · rename_i haccepts
      exact accepts_of_held? haccepts h
    · cases h
      exact accepts_initial s

/-- A value out of range counts as none. -/
theorem settled_filter (s : Setting) (given : Option Yaml.Value) :
    s.settled (given.filter s.accepts) = s.settled given := by
  cases given with
  | none => rfl
  | some v =>
    rw [Option.filter_some]
    by_cases haccepts : s.accepts v
    · rw [if_pos haccepts]
    · rw [if_neg haccepts, settled, settled, if_neg haccepts]

end Setting

/-! ### Tables with one entry of a name -/

namespace Settings

/-- Whether an entry of a table is under a name. -/
def isUnder (name : String) (entry : Yaml.Value × Yaml.Value) : Bool :=
  entry.1.string? = some name

/-- The names that the entries of a table are under. -/
def names (fields : List (Yaml.Value × Yaml.Value)) : List String :=
  fields.filterMap fun entry => entry.1.string?

/-- The value that a setting is given in a table: the last one under its name. -/
def lastGiven? (fields : List (Yaml.Value × Yaml.Value)) (s : Setting) : Option Yaml.Value :=
  (fields.findRev? (isUnder s.name)).map Prod.snd

variable {name : String} {entry : Yaml.Value × Yaml.Value}

theorem isUnder_iff : isUnder name entry ↔ entry.1.string? = some name := decide_eq_true_iff

theorem mem_names_iff {fields : List (Yaml.Value × Yaml.Value)} :
    name ∈ names fields ↔ ∃ entry ∈ fields, isUnder name entry := by
  simp only [names, List.mem_filterMap, isUnder_iff]

theorem names_cons (entry : Yaml.Value × Yaml.Value) (fields : List (Yaml.Value × Yaml.Value)) :
    names (entry :: fields) = entry.1.string?.toList ++ names fields := by
  rw [names, List.filterMap_cons]
  cases entry.1.string? <;> rfl

theorem names_append_singleton (fields : List (Yaml.Value × Yaml.Value))
    (entry : Yaml.Value × Yaml.Value) :
    names (fields ++ [entry]) = names fields ++ entry.1.string?.toList := by
  rw [names, List.filterMap_append]
  cases hkey : entry.1.string? <;> simp [names, hkey]

/-- A pair whose key is no text is one more entry. -/
theorem enter_of_string?_eq_none (fields : List (Yaml.Value × Yaml.Value))
    (h : entry.1.string? = none) : enter fields entry = fields ++ [entry] := by
  rw [enter, if_neg]
  simp [h]

/-- A pair whose key is a text takes the place of the entry under that name. -/
theorem enter_of_isUnder (fields : List (Yaml.Value × Yaml.Value)) (h : isUnder name entry) :
    enter fields entry =
      if fields.any (isUnder name) then fields.map fun e => if isUnder name e then entry else e
      else fields ++ [entry] := by
  unfold enter
  extract_lets isSame
  have hsame : isSame = isUnder name := by
    funext e
    simp only [isSame, isUnder_iff.mp h, isUnder]
    cases e.1.string? with
    | none => rfl
    | some a => simp [beq_eq_decide]
  rw [hsame]

/-- What takes the place of an entry is under the same name. -/
theorem string?_replace {key : String} (hentry : isUnder key entry) (e : Yaml.Value × Yaml.Value) :
    (if isUnder key e then entry else e).1.string? = e.1.string? := by
  split
  · rename_i he
    rw [isUnder_iff.mp hentry, isUnder_iff.mp he]
  · rfl

/-- Where an entry takes the place of others, it is found under their name, and nothing else is
found in another place. -/
theorem find?_map_replace {key : String} (hentry : isUnder key entry)
    {fields : List (Yaml.Value × Yaml.Value)} (hany : fields.any (isUnder key)) (name : String) :
    (fields.map fun e => if isUnder key e then entry else e).find? (isUnder name) =
      if key = name then some entry else fields.find? (isUnder name) := by
  have hsame : (isUnder name ∘ fun e => if isUnder key e then entry else e) = isUnder name := by
    funext e
    rw [Function.comp_apply, isUnder, string?_replace hentry, isUnder]
  rw [List.find?_map, hsame]
  by_cases hname : key = name
  · subst hname
    obtain ⟨e, he⟩ := Option.isSome_iff_exists.mp
      (List.find?_isSome.mpr (List.any_eq_true.mp hany))
    rw [he, Option.map_some, if_pos (List.find?_some he), if_pos rfl]
  · rw [if_neg hname]
    cases he : fields.find? (isUnder name) with
    | none => rfl
    | some e =>
      have hother : ¬ isUnder key e := by
        rw [isUnder_iff, isUnder_iff.mp (List.find?_some he), Option.some.injEq]
        exact Ne.symm hname
      rw [Option.map_some, if_neg hother]

/-- A pair that is one more entry is found under its name unless there was an entry before. -/
theorem find?_append_entry {fields : List (Yaml.Value × Yaml.Value)}
    (hnone : isUnder name entry → fields.find? (isUnder name) = none) :
    (fields ++ [entry]).find? (isUnder name) =
      if isUnder name entry then some entry else fields.find? (isUnder name) := by
  rw [List.find?_append, List.find?_singleton]
  by_cases hunder : isUnder name entry
  · rw [hnone hunder, if_pos hunder, Option.none_or]
  · rw [if_neg hunder, if_neg hunder, Option.or_none]

/-- Entering a pair changes what is found under its own name, and under no other. -/
theorem find?_enter (fields : List (Yaml.Value × Yaml.Value)) (entry : Yaml.Value × Yaml.Value)
    (name : String) :
    (enter fields entry).find? (isUnder name) =
      if isUnder name entry then some entry else fields.find? (isUnder name) := by
  cases hkey : entry.1.string? with
  | none =>
    rw [enter_of_string?_eq_none fields hkey]
    refine find?_append_entry fun hunder => ?_
    rw [isUnder_iff, hkey] at hunder
    cases hunder
  | some key =>
    have hunder_iff : isUnder name entry ↔ key = name := by
      rw [isUnder_iff, hkey, Option.some.injEq]
    have hentry : isUnder key entry := isUnder_iff.mpr hkey
    rw [enter_of_isUnder fields hentry]
    by_cases hany : fields.any (isUnder key)
    · rw [if_pos hany, find?_map_replace hentry hany]
      simp only [hunder_iff]
    · rw [if_neg hany]
      refine find?_append_entry fun hunder => ?_
      rw [← hunder_iff.mp hunder]
      simpa using hany

/-- In a table, the last pair that was entered under a name is found under it. -/
theorem find?_foldl_enter (pairs fields : List (Yaml.Value × Yaml.Value)) (name : String) :
    (pairs.foldl enter fields).find? (isUnder name) =
      (pairs.findRev? (isUnder name)).or (fields.find? (isUnder name)) := by
  induction pairs generalizing fields with
  | nil => rfl
  | cons pair rest ih =>
    rw [List.foldl_cons, ih, find?_enter, List.findRev?]
    cases rest.findRev? (isUnder name) with
    | some e => rfl
    | none => cases hunder : isUnder name pair <;> simp

/-- Entering a pair leaves one entry of each name. -/
theorem nodup_names_enter {fields : List (Yaml.Value × Yaml.Value)} (h : (names fields).Nodup)
    (entry : Yaml.Value × Yaml.Value) : (names (enter fields entry)).Nodup := by
  cases hkey : entry.1.string? with
  | none =>
    rw [enter_of_string?_eq_none fields hkey, names_append_singleton, hkey, Option.toList_none,
      List.append_nil]
    exact h
  | some key =>
    have hentry : isUnder key entry := isUnder_iff.mpr hkey
    rw [enter_of_isUnder fields hentry]
    split
    · rw [names, List.filterMap_map]
      have hsame : ((fun e : Yaml.Value × Yaml.Value => e.1.string?) ∘
          fun e => if isUnder key e then entry else e) = fun e => e.1.string? := by
        funext e
        exact string?_replace hentry e
      rw [hsame]
      exact h
    · rename_i hany
      have hnew : key ∉ names fields := by
        rw [mem_names_iff]
        rintro ⟨e, he, hunder⟩
        exact hany (List.any_eq_true.mpr ⟨e, he, hunder⟩)
      rw [names_append_singleton, hkey]
      exact (List.perm_append_singleton key (names fields)).nodup_iff.mpr
        (List.nodup_cons.mpr ⟨hnew, h⟩)

/-- A table has one entry of each name. -/
theorem nodup_names_foldl_enter (pairs : List (Yaml.Value × Yaml.Value)) :
    (names (pairs.foldl enter [])).Nodup := by
  suffices h : ∀ fields, (names fields).Nodup → (names (pairs.foldl enter fields)).Nodup from
    h [] List.nodup_nil
  induction pairs with
  | nil => exact fun _ h => h
  | cons pair rest ih => exact fun fields h => ih _ (nodup_names_enter h pair)

end Settings

/-! ### What an entry does -/

namespace Held

open Settings

variable {h h' : Held} {s : Setting} {entry : Yaml.Value × Yaml.Value}

/-- An entry is passed over, or it names a setting and the value is held. -/
theorem take_cases (htake : h.take entry = .ok h') :
    (h' = h ∧ ∀ s : Setting, isUnder s.name entry → ¬ s.accepts entry.2) ∨
      ∃ (key : Setting) (v : Yaml.Value), isUnder key.name entry ∧ key.accepts entry.2 ∧
        key.held? entry.2 = .ok v ∧ h' = h.put key v := by
  have hpassed {checked : Except Failure Unit} (heq : checked.map (fun _ => h) = .ok h') :
      h' = h := by
    cases checked with
    | error e => cases heq
    | ok _ =>
      cases heq
      rfl
  rw [take] at htake
  split at htake
  · rename_i hkey
    refine .inl ⟨hpassed htake, fun s hunder => ?_⟩
    rw [isUnder_iff.mp hunder, Option.bind_some, Setting.ofName?_name] at hkey
    cases hkey
  · rename_i key hkey
    obtain ⟨name, hname, hkey⟩ := Option.bind_eq_some_iff.mp hkey
    cases Setting.ofName?_eq_some_iff.mp hkey
    split at htake
    · rename_i haccepts
      cases hheld : key.held? entry.2 with
      | error e => rw [hheld] at htake; cases htake
      | ok v =>
        rw [hheld] at htake
        cases htake
        exact .inr ⟨key, v, isUnder_iff.mpr hname, haccepts, hheld, rfl⟩
    · rename_i haccepts
      refine .inl ⟨hpassed htake, fun s hunder => ?_⟩
      rw [isUnder_iff, hname, Option.some.injEq] at hunder
      cases Setting.name_injective hunder
      exact haccepts

/-- An entry leaves the settings alone that it does not name. -/
theorem take_of_not_isUnder (hunder : ¬ isUnder s.name entry) (htake : h.take entry = .ok h') :
    h' s = h s := by
  obtain ⟨rfl, -⟩ | ⟨key, v, hkey, -, -, rfl⟩ := take_cases htake
  · rfl
  · have hne : s ≠ key := by
      rintro rfl
      exact hunder hkey
    exact if_neg hne

/-- An entry that names a setting settles it, if it still has the value from the start. -/
theorem take_of_isUnder (hunder : isUnder s.name entry) (hstart : h s = s.initial)
    (htake : h.take entry = .ok h') : s.settled (some entry.2) = .ok (h' s) := by
  rw [Setting.settled]
  obtain ⟨rfl, hrefused⟩ | ⟨key, v, hkey, haccepts, hheld, rfl⟩ := take_cases htake
  · rw [if_neg (hrefused s hunder), hstart]
  · have hsame : s.name = key.name :=
      Option.some.inj ((isUnder_iff.mp hunder).symm.trans (isUnder_iff.mp hkey))
    cases Setting.name_injective hsame
    rw [if_pos haccepts, hheld, put, if_pos rfl]

theorem foldlM_take_of_not_mem {entries : List (Yaml.Value × Yaml.Value)}
    (hnot : s.name ∉ names entries) (htake : entries.foldlM take h = .ok h') : h' s = h s := by
  induction entries generalizing h with
  | nil =>
    cases htake
    rfl
  | cons entry rest ih =>
    rw [List.foldlM_cons] at htake
    cases hentry : h.take entry with
    | error e => rw [hentry] at htake; cases htake
    | ok next =>
      rw [hentry] at htake
      have hunder : ¬ isUnder s.name entry := fun hunder =>
        hnot (mem_names_iff.mpr ⟨entry, List.mem_cons_self, hunder⟩)
      have hrest : s.name ∉ names rest := fun hmem =>
        hnot (mem_names_iff.mpr ((mem_names_iff.mp hmem).imp fun _ he =>
          ⟨List.mem_cons_of_mem _ he.1, he.2⟩))
      rw [ih hrest htake, take_of_not_isUnder hunder hentry]

/-- The entries of a table settle every setting that still has the value from the start. The entry
that names it does so: those before it and those after it leave it alone. -/
theorem settled_of_foldlM_take {entries : List (Yaml.Value × Yaml.Value)}
    (hnodup : (names entries).Nodup) (hstart : h s = s.initial)
    (htake : entries.foldlM take h = .ok h') :
    s.settled ((entries.find? (isUnder s.name)).map Prod.snd) = .ok (h' s) := by
  induction entries generalizing h with
  | nil =>
    cases htake
    rw [hstart]
    rfl
  | cons entry rest ih =>
    rw [List.foldlM_cons] at htake
    cases hentry : h.take entry with
    | error e => rw [hentry] at htake; cases htake
    | ok next =>
      rw [hentry] at htake
      by_cases hunder : isUnder s.name entry
      · have hnot : s.name ∉ names rest := by
          rw [names_cons, isUnder_iff.mp hunder] at hnodup
          exact (List.nodup_cons.mp hnodup).1
        rw [List.find?_cons_of_pos hunder, Option.map_some, foldlM_take_of_not_mem hnot htake]
        exact take_of_isUnder hunder hstart hentry
      · have hrest : (names rest).Nodup :=
          hnodup.sublist ((List.sublist_cons_self entry rest).filterMap _)
        rw [List.find?_cons_of_neg hunder]
        exact ih hrest ((take_of_not_isUnder hunder hentry).trans hstart) htake

/-- **The value of each setting** after a table has been merged is settled by the last value under
its name. -/
theorem settled_of_merge {fields : List (Yaml.Value × Yaml.Value)} {held : Held}
    (hmerge : merge fields = .ok held) (s : Setting) :
    s.settled (lastGiven? fields s) = .ok (held s) := by
  have hfound := find?_foldl_enter fields [] s.name
  rw [List.find?_nil, Option.or_none] at hfound
  rw [lastGiven?, ← hfound]
  exact settled_of_foldlM_take (nodup_names_foldl_enter fields) rfl hmerge

end Held

/-! ### The names that are kept -/

/-- The values as they are kept: in a table by the names of the settings. -/
abbrev Kept := Table String Yaml.Value

/-- The table of the values that are held. -/
def Held.table (h : Held) : Kept := Setting.all.map fun s => (s.name, h s)

namespace Kept

/-- Keep the value of an entry under its name if it names a setting and the value is in range. -/
def take (t : Kept) (entry : Yaml.Value × Yaml.Value) : Except Failure Kept :=
  match entry.1.string?.bind Setting.ofName? with
  | none => (entry.1.checkShown).map fun _ => t
  | some key =>
    if key.accepts entry.2 then (key.held? entry.2).map fun v => t.insert key.name v
    else (entry.2.checkShown).map fun _ => t

/-- Keep the values of the entries of a table. -/
def merge (fields : List (Yaml.Value × Yaml.Value)) : Except Failure Kept :=
  (fields.foldl Settings.enter []).foldlM take (Held.table Setting.initial)

/-- Keeping a value under the name of a setting is holding it. -/
theorem insert_table (h : Held) (key : Setting) (v : Yaml.Value) :
    h.table.insert key.name v = (h.put key v).table := by
  cases key <;> rfl

theorem take_table (h : Held) (entry : Yaml.Value × Yaml.Value) :
    take h.table entry = Held.table <$> h.take entry := by
  rw [take, Held.take]
  cases entry.1.string?.bind Setting.ofName? with
  | none => cases entry.1.checkShown <;> rfl
  | some key =>
    by_cases haccepts : key.accepts entry.2
    · simp only [haccepts, if_true, insert_table]
      cases key.held? entry.2 <;> rfl
    · simp only [haccepts]
      cases entry.2.checkShown <;> rfl

theorem foldlM_take_table (entries : List (Yaml.Value × Yaml.Value)) (h : Held) :
    entries.foldlM take h.table = Held.table <$> entries.foldlM Held.take h := by
  induction entries generalizing h with
  | nil => rfl
  | cons entry rest ih =>
    rw [List.foldlM_cons, List.foldlM_cons, take_table]
    cases h.take entry with
    | error e => rfl
    | ok h' => exact ih h'

/-- Merging a table leaves the names as they are: none is added, none is lost, and they stay in
order. -/
theorem merge_eq (fields : List (Yaml.Value × Yaml.Value)) :
    merge fields = Held.table <$> Held.merge fields :=
  foldlM_take_table (fields.foldl Settings.enter []) Setting.initial

end Kept

/-! ### Merging -/

namespace Settings

/-- **Merging a table.** It comes to an end exactly if every entry can be taken over or passed over.
Then there is one value under each name and no other name. Each of them is settled by what the table
has under that name; it is in range itself, and asking for it does not fail. Tables that give a
setting the same value in range, or none in range, make the same of it, whatever else they hold and
in whatever order. -/
theorem merges_settled_iff (fields : List (Yaml.Value × Yaml.Value)) :
    ((∃ held : Held, merge fields = .ok held.settings ∧ Kept.merge fields = .ok held.table ∧
        ∀ s : Setting, s.settled (lastGiven? fields s) = .ok (held s) ∧ s.accepts (held s) ∧
          held.get s = .ok (held s)) ↔
      ∀ entry ∈ fields.foldl enter [], Bearable entry) ∧
    ∀ others held held', Held.merge fields = .ok held → Held.merge others = .ok held' →
      ∀ s : Setting,
        (lastGiven? fields s).filter s.accepts = (lastGiven? others s).filter s.accepts →
          held s = held' s := by
  refine ⟨⟨?_, fun hbearable => ?_⟩, ?_⟩
  · rintro ⟨held, hmerge, -⟩
    rw [← exists_merge_iff]
    rw [merge_eq] at hmerge
    cases hheld : Held.merge fields with
    | error e => rw [hheld] at hmerge; cases hmerge
    | ok h => exact ⟨h, rfl⟩
  · obtain ⟨held, hheld⟩ := (exists_merge_iff fields).mpr hbearable
    refine ⟨held, by rw [merge_eq, hheld]; rfl, by rw [Kept.merge_eq, hheld]; rfl, fun s => ?_⟩
    have hsettled := Held.settled_of_merge hheld s
    have hkind : held.IsKind :=
      Held.IsKind.foldlM Setting.isOfKind_initial hheld
    exact ⟨hsettled, Setting.accepts_of_settled hsettled, hkind.get s⟩
  · intro others held held' hheld hheld' s hgiven
    have hsettled := Held.settled_of_merge hheld s
    rw [← Setting.settled_filter, hgiven, Setting.settled_filter,
      Held.settled_of_merge hheld' s] at hsettled
    exact (Except.ok.inj hsettled).symm

/-- What is not known or out of range is passed over, and the last value of a name counts. -/
example :
    (merge [(.string "json_indent", .int 4), (.string "colour", .null),
      (.string "max_file_lines", .int 5), (.string "json_indent", .int 12)]).toOption.map
        (fun s => (s.indent, s.mostLines)) = some (2, 5) := by
  decide +kernel

/-- A whole number that is out of range and too long to be told keeps a table from being merged,
although no period is too large to be converted. -/
theorem not_always_merges :
    ¬ ∀ fields : List (Yaml.Value × Yaml.Value),
      (∀ n, lastGiven? fields .quietPeriod = some (.int n) → n.natAbs < Yaml.floatBound) →
        ∃ s, merge fields = .ok s := by
  intro hall
  obtain ⟨s, hs⟩ := hall [(.string Setting.indent.name, .int (2 ^ 14400))] nofun
  have herror : (merge [(.string Setting.indent.name, .int (2 ^ 14400))]).toOption.isNone := by
    decide +kernel
  rw [hs] at herror
  cases herror

end Settings

end Concordance
