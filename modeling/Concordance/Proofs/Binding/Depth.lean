import Concordance.Proofs.Binding.Questions

/-!
# The depth is enough

No question that is asked of a codebase goes deeper than `Codebase.depth`, whatever answers are
kept.

## Why

A question that is being answered is not answered again, so a chain of open questions holds each of
them once. There is a supply of questions about names with sources of their own and about declared
members; opening one of these takes it from the supply. A question about any other name leads to
questions about the same name in other modules only, of which there are no more than modules. So
what can still follow on a question is bounded by `Codebase.room`, and opening a question makes it
smaller for all that it leads to.

## Main results

* `Codebase.room_lt_of_stepsLeft`, `Codebase.room_add_ofName_lt`: opening a question leaves less
  room to each that it leads to
* `Codebase.unlimited_ask`: a codebase is never asked too deeply
-/

namespace Concordance.Binding

/-! ### What is left of a list -/

section

variable {κ : Type} [DecidableEq κ]

/-- The number of members of a list that have not been seen. -/
def unseen (l seen : List κ) : Nat := l.countP fun k => decide (k ∉ seen)

theorem unseen_cons_le (l seen : List κ) (k : κ) : unseen l (k :: seen) ≤ unseen l seen := by
  refine List.countP_mono_left fun x _ hx => ?_
  simp only [decide_eq_true_eq, List.mem_cons, not_or] at hx ⊢
  exact hx.2

theorem unseen_cons_lt {l seen : List κ} {k : κ} (hk : k ∈ l) (hseen : k ∉ seen) :
    unseen l (k :: seen) < unseen l seen := by
  obtain ⟨before, after, rfl⟩ := List.append_of_mem hk
  have hbefore := unseen_cons_le before seen k
  have hafter := unseen_cons_le after seen k
  unfold unseen at hbefore hafter ⊢
  rw [List.countP_append, List.countP_append, List.countP_cons_of_neg (by simp),
    List.countP_cons_of_pos (by simpa using hseen)]
  omega

end

theorem mem_keys_of_find? {κ α : Type} [DecidableEq κ] {t : Table κ α} {key : κ} {a : α}
    (h : t.find? key = some a) : key ∈ t.map Prod.fst :=
  List.mem_map_of_mem (Table.mem_of_find? h)

/-! ### Supplies -/

namespace Codebase

theorem mem_memberNames {k : ClassDecl} {attr : String} {s : Symbol}
    (h : k.ownMember? attr = some s) : attr ∈ memberNames k := by
  rw [ClassDecl.ownMember?] at h
  simp only [memberNames, List.mem_append]
  rcases Option.or_eq_some_iff.mp h with h | ⟨-, h⟩
  · exact .inl (.inl (.inl (mem_keys_of_find? h)))
  rcases Option.or_eq_some_iff.mp h with h | ⟨-, h⟩
  · exact .inl (.inl (.inr (mem_keys_of_find? h)))
  rcases Option.or_eq_some_iff.mp h with h | ⟨-, h⟩
  · exact .inl (.inr (mem_keys_of_find? h))
  obtain ⟨p, hp, -⟩ := Option.map_eq_some_iff.mp h
  exact .inr (mem_keys_of_find? hp)

theorem mem_ownNames {c : Codebase} {m : Nat} {name : String} {sources : List Source}
    (h : (c.outline m).names.find? name = some sources) : (m, name) ∈ c.ownNames := by
  rw [outline] at h
  cases ho : c.outlines[m]? with
  | none =>
    rw [ho] at h
    cases h
  | some o =>
    rw [ho] at h
    obtain ⟨e, he, hname⟩ := List.mem_map.mp (mem_keys_of_find? h)
    refine List.mem_flatMap.mpr ⟨(o, m), List.mem_zipIdx_iff_getElem?.mpr ho, ?_⟩
    exact List.mem_map.mpr ⟨e, he, by rw [hname]⟩

theorem mem_declaredNames {c : Codebase} {owner : ClassId} {attr : String} {aspect : Aspect}
    (h : c.Declares owner attr aspect) : (owner, attr) ∈ c.declaredNames := by
  obtain ⟨s, hs, -⟩ := h
  obtain ⟨k, hk, hs⟩ := Option.bind_eq_some_iff.mp hs
  obtain ⟨d, hd, hk⟩ := Option.bind_eq_some_iff.mp hk
  have hposition : k.position = owner.position := by simpa using List.find?_some hk
  refine List.mem_flatMap.mpr ⟨(d, owner.moduleIndex), List.mem_zipIdx_iff_getElem?.mpr hd, ?_⟩
  refine List.mem_flatMap.mpr ⟨k, List.mem_of_find?_eq_some hk, ?_⟩
  exact List.mem_map.mpr ⟨attr, mem_memberNames hs, by rw [hposition]⟩

/-! ### Room -/

/-- The supply of questions about names with sources of their own and about declared members. -/
def stepsLeft (c : Codebase) (asked : Open) : Nat :=
  unseen c.ownNames asked.exports + unseen c.declaredNames asked.members

/-- The modules in which a name has not been asked for. -/
def modulesLeft (c : Codebase) (asked : Open) (name : String) : Nat :=
  unseen ((List.range c.modules.length).map fun m => (m, name)) asked.exports

/-- A bound on the questions inside each other that begin with a question. -/
def room (c : Codebase) (asked : Open) : Question → Nat
  | .ofName _ name => c.stepsLeft asked * (c.modules.length + 1) + c.modulesLeft asked name + 1
  | .ofMember .. => c.stepsLeft asked * (c.modules.length + 1) + 1

theorem modulesLeft_le (c : Codebase) (asked : Open) (name : String) :
    c.modulesLeft asked name ≤ c.modules.length := by
  have h : c.modulesLeft asked name ≤ _ := List.countP_le_length
  rwa [List.length_map, List.length_range] at h

/-- A depth that there is room for while some questions are open: what is left of the supply, with
a chain through the modules after each of its questions. -/
def enough (c : Codebase) (asked : Open) : Nat :=
  (c.stepsLeft asked + 1) * (c.modules.length + 1)

theorem room_le (c : Codebase) (asked : Open) (Q : Question) : c.room asked Q ≤ c.enough asked := by
  rw [enough, Nat.succ_mul]
  cases Q with
  | ofName m name =>
    have := c.modulesLeft_le asked name
    simp only [room]
    omega
  | ofMember owner attr aspect =>
    simp only [room]
    omega

/-- A codebase is asked deep enough. -/
theorem enough_le_depth (c : Codebase) : c.enough {} ≤ c.depth := by
  have hsteps : c.stepsLeft {} ≤ c.steps :=
    Nat.add_le_add List.countP_le_length List.countP_le_length
  have hmul := Nat.mul_le_mul_right (c.modules.length + 1) (Nat.succ_le_succ hsteps)
  exact Nat.le_succ_of_le hmul

/-- There is less room to begin with than a codebase is asked deep. -/
theorem room_le_depth (c : Codebase) (Q : Question) : c.room {} Q ≤ c.depth :=
  Nat.le_trans (c.room_le {} Q) c.enough_le_depth

/-- Opening a question of the supply leaves less room to every other question. -/
theorem room_lt_of_stepsLeft {c : Codebase} {asked asked' : Open}
    (h : c.stepsLeft asked' < c.stepsLeft asked) (Q Q' : Question) :
    c.room asked' Q' < c.room asked Q := by
  have hle := c.room_le asked' Q'
  have hmul := Nat.mul_le_mul_right (c.modules.length + 1) (Nat.succ_le_of_lt h)
  have hpos : c.stepsLeft asked * (c.modules.length + 1) < c.room asked Q := by
    cases Q <;> simp only [room] <;> omega
  exact Nat.lt_of_le_of_lt (Nat.le_trans hle hmul) hpos

theorem stepsLeft_add_lt {c : Codebase} {asked : Open} {Q : Question} (hopen : ¬ asked.Has Q)
    (hQ : match Q with
      | .ofName m name => (m, name) ∈ c.ownNames
      | .ofMember owner attr _ => (owner, attr) ∈ c.declaredNames) :
    c.stepsLeft (asked.add Q) < c.stepsLeft asked := by
  cases Q with
  | ofName m name => exact Nat.add_lt_add_right (unseen_cons_lt hQ hopen) _
  | ofMember owner attr aspect => exact Nat.add_lt_add_left (unseen_cons_lt hQ hopen) _

/-- Opening a question about a name leaves less room to questions about the same name. -/
theorem room_add_ofName_lt {c : Codebase} {asked : Open} {m : Nat} {name : String}
    (hm : m < c.modules.length) (hopen : (m, name) ∉ asked.exports) (m' : Nat) :
    c.room (asked.add (.ofName m name)) (.ofName m' name) < c.room asked (.ofName m name) := by
  have hsteps : c.stepsLeft (asked.add (.ofName m name)) ≤ c.stepsLeft asked :=
    Nat.add_le_add_right (unseen_cons_le _ _ _) _
  have hmodules : c.modulesLeft (asked.add (.ofName m name)) name < c.modulesLeft asked name :=
    unseen_cons_lt (List.mem_map.mpr ⟨m, List.mem_range.mpr hm, rfl⟩) hopen
  have hmul := Nat.mul_le_mul_right (c.modules.length + 1) hsteps
  simp only [room]
  omega

/-- Where there is no module, there is nothing in its outline. -/
def Outlined (c : Codebase) : Prop := ∀ m, c.modules.length ≤ m → c.outline m = {}

theorem outlined_ofModules (modules : List ModuleDecls) (bases : Table ClassId (List ClassId)) :
    Outlined { ofModules modules with bases } := by
  intro m hm
  have hnone : (ofModules modules).outlines[m]? = none := by
    rw [List.getElem?_eq_none_iff]
    simpa [ofModules] using hm
  simp only [outline, hnone, Option.getD_none]

/-- Answers are related if replies are to those questions that there is less room for. -/
theorem answer_of_room {R : ∀ ⦃α : Type⦄, Resolve α → Resolve α → Prop} (hR : Congruence R)
    {c : Codebase} (hc : c.Outlined) {q p : Questions} {asked : Open} {Q : Question}
    (hQ : c.Asks Q) (hopen : ¬ asked.Has Q)
    (hq : ∀ Q', c.Asks Q' → c.room (asked.add Q) Q' < c.room asked Q →
      R (q.reply Q') (p.reply Q')) : R (c.answer q Q) (c.answer p Q) := by
  -- A question of the supply may lead to any other one.
  have hsupply : c.stepsLeft (asked.add Q) < c.stepsLeft asked → R (c.answer q Q) (c.answer p Q) :=
    fun h => hR.answer (fun Q' hQ' => hq Q' hQ' (room_lt_of_stepsLeft h Q Q')) Q
  cases Q with
  | ofMember owner attr aspect =>
    exact hsupply (stepsLeft_add_lt hopen (mem_declaredNames hQ))
  | ofName m name =>
    cases hsources : (c.outline m).names.find? name with
    | some sources => exact hsupply (stepsLeft_add_lt hopen (mem_ownNames hsources))
    | none =>
      show R (resolveExport c q m name) (resolveExport c p m name)
      rw [resolveExport, resolveExport, hsources]
      dsimp only
      split
      · exact hR.pure none
      by_cases hm : m < c.modules.length
      · exact hR.firstExport
          (fun m' => hq (.ofName m' name) trivial (room_add_ofName_lt hm hopen m')) c m _
      · rw [hc m (Nat.le_of_not_lt hm)]
        exact hR.pure none

/-! ### No question is too deep -/

/-- Work that does not fail for its depth. -/
def Unlimited {α : Type} (x : Resolve α) : Prop := ∀ s, (x.run s).1 ≠ .error .tooDeep

theorem congruence_unlimited : Congruence fun _ x _ => Unlimited x where
  pure a s := nofun
  throw _ _ s := nofun
  bind {α β x y f g} hx hf s := by
    rw [run_bind]
    have hxs := hx s
    generalize x.run s = ran at hxs ⊢
    obtain ⟨e | a, s'⟩ := ran
    · exact fun h => hxs (by cases h; rfl)
    · exact hf a s'

theorem unlimited_reply {c : Codebase} (hc : c.Outlined) (depth : Nat) {asked : Open}
    {Q : Question} (hQ : c.Asks Q) (hdepth : c.room asked Q ≤ depth) :
    Unlimited ((c.questions depth asked).reply Q) := by
  induction depth generalizing asked Q with
  | zero =>
    have : 0 < c.room asked Q := by cases Q <;> exact Nat.succ_pos _
    omega
  | succ depth ih =>
    intro s
    rw [run_reply]
    cases Q.kept? s with
    | some kept => exact nofun
    | none =>
      dsimp only
      split
      · exact nofun
      · rename_i hopen
        have hanswer : ((c.answer (c.questions depth (asked.add Q)) Q).run s).1 ≠ .error .tooDeep :=
          answer_of_room congruence_unlimited hc (p := c.questions depth (asked.add Q)) hQ hopen
            (fun Q' hQ' hroom => ih hQ' (by omega)) s
        generalize (c.answer (c.questions depth (asked.add Q)) Q).run s = ran at hanswer ⊢
        obtain ⟨e | a, s'⟩ := ran
        · exact fun h => hanswer (by cases h; rfl)
        · exact nofun

/-- **A codebase is never asked too deeply.** Whatever answers are kept, no question that it can be
asked fails for its depth. -/
theorem unlimited_ask {c : Codebase} (hc : c.Outlined) {Q : Question} (hQ : c.Asks Q) :
    Unlimited (c.ask.reply Q) :=
  unlimited_reply hc c.depth hQ (c.room_le_depth Q)

end Codebase

end Concordance.Binding
