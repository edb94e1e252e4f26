import Concordance.Sharing.Session
import Mathlib.Data.List.Forall2

/-!
# What becomes of a generation

Every invariant of a shared value is about generations that go on changing while others are
started. Instead of opening each operation again for each invariant, this file says once what an
operation can do to a generation, and the invariants are derived from that.

Three relations are enough, each of them narrower than the one before. `Generation.Later` holds
between a generation and anything it can become: numbers stay, flags only go up, an outcome stays
what it is, and the link to the generation before is kept for as long as a walk back may need it.
`Generation.Steady` leaves out being aborted, and `Generation.Progress` also coming and leaving; it
is all that loads, time limits and closing account for.

## Main results

* `Shared.Advances` and its lemmas: loads, time limits and closing only make progress
* `Shared.Numbered.find?_eq`: generations are told apart by their numbers
* `Shared.generations_release`: what leaving does to a generation
* `Shared.Grows`: what all operations together can do
-/

namespace Concordance.Sharing

variable {α : Type}

namespace Generation

/-! ### Single generations -/

/-- `g'` is what `g` can have become. The last clause says that only a load without an outcome is
aborted, and that the link of a generation is dropped only with an outcome that is not aborted. -/
structure Later (g g' : Generation α) : Prop where
  number : g'.number = g.number
  aborted : g.aborted = true → g'.aborted = true
  cancelled : g.token.cancelled = true → g'.token.cancelled = true
  outcome : ∀ r, g.outcome? = some r → g'.outcome? = some r
  link : g'.aborted = true ∨ g'.outcome? = none →
    g'.previous = g.previous ∧ (g.aborted = true ∨ g.outcome? = none)

/-- `g'` is what `g` can have become without being aborted. -/
structure Steady (g g' : Generation α) : Prop extends Later g g' where
  aborted_eq : g'.aborted = g.aborted

/-- `g'` is what `g` can have become while nobody came or left. -/
structure Progress (g g' : Generation α) : Prop extends Steady g g' where
  waiters : g'.waiters = g.waiters

theorem Progress.refl (g : Generation α) : Progress g g where
  number := rfl
  aborted := id
  cancelled := id
  outcome _ := id
  link h := ⟨rfl, h⟩
  aborted_eq := rfl
  waiters := rfl

theorem Later.refl (g : Generation α) : Later g g := (Progress.refl g).toLater

theorem Later.trans {g g' g'' : Generation α} (h : Later g g') (h' : Later g' g'') :
    Later g g'' where
  number := h'.number.trans h.number
  aborted ha := h'.aborted (h.aborted ha)
  cancelled hc := h'.cancelled (h.cancelled hc)
  outcome r hr := h'.outcome r (h.outcome r hr)
  link hl := by
    obtain ⟨hp', hl'⟩ := h'.link hl
    obtain ⟨hp, hl⟩ := h.link hl'
    exact ⟨hp'.trans hp, hl⟩

theorem Progress.trans {g g' g'' : Generation α} (h : Progress g g') (h' : Progress g' g'') :
    Progress g g'' where
  toLater := h.toLater.trans h'.toLater
  aborted_eq := h'.aborted_eq.trans h.aborted_eq
  waiters := h'.waiters.trans h.waiters

/-- A load that has an outcome is not aborted any more. -/
theorem Later.aborted_eq_false {g g' : Generation α} (h : Later g g') (hr : g.outcome? ≠ none)
    (ha : g.aborted = false) : g'.aborted = false := by
  by_contra hc
  rcases (h.link (.inl (by simpa using hc))).2 with h' | h'
  · simp [ha] at h'
  · exact hr h'

theorem isSettled_eq_false_iff (g : Generation α) : g.isSettled = false ↔ g.outcome? = none := by
  simp [isSettled]

theorem outcome?_of_isQueued {g : Generation α} (h : g.isQueued = true) : g.outcome? = none := by
  rw [isQueued] at h
  rw [outcome?]
  cases hl : g.load <;> simp [hl] at h ⊢

theorem outcome?_of_isRunning {g : Generation α} (h : g.isRunning = true) : g.outcome? = none := by
  rw [isRunning] at h
  rw [outcome?]
  cases hl : g.load <;> simp [hl] at h ⊢

theorem isRunning_of_isQueued_eq_false {g : Generation α} (h : g.isQueued = false)
    (hr : g.outcome? = none) : g.isRunning = true := by
  rw [isQueued] at h
  rw [outcome?] at hr
  rw [isRunning]
  cases hl : g.load <;> simp [hl] at h hr ⊢

@[simp] theorem outcome?_settle (g : Generation α) (r : Except Failure α) :
    (g.settle r).outcome? = some r := rfl

theorem steady_attach (g : Generation α) : Steady g g.attach :=
  ⟨⟨rfl, id, id, fun _ => id, fun h => ⟨rfl, h⟩⟩, rfl⟩

theorem steady_leave (g : Generation α) : Steady g g.leave :=
  ⟨⟨rfl, id, id, fun _ => id, fun h => ⟨rfl, h⟩⟩, rfl⟩

theorem later_abort {g : Generation α} (h : g.outcome? = none) : Later g g.abort where
  number := rfl
  aborted _ := rfl
  cancelled _ := Token.cancelled_cancel g.token _
  outcome r hr := by rw [h] at hr; cases hr
  link _ := ⟨rfl, .inr h⟩

theorem progress_launch (g : Generation α) : Progress g g.launch := by
  rw [launch]
  split
  case isFalse => exact Progress.refl g
  case isTrue h =>
    have hnone := outcome?_of_isQueued h
    exact {
      number := rfl
      aborted := id
      cancelled := id
      outcome := fun r hr => by rw [hnone] at hr; cases hr
      link := fun _ => ⟨rfl, .inr hnone⟩
      aborted_eq := rfl
      waiters := rfl }

theorem progress_finish (g : Generation α) (root : String) (limit : Option String)
    (result : Except Failure α) : Progress g (g.finish root limit result) := by
  rw [finish]
  split
  case isFalse => exact Progress.refl g
  case isTrue h =>
    exact {
      number := rfl
      aborted := id
      cancelled := id
      outcome := fun r hr => by rw [outcome?_of_isRunning h] at hr; cases hr
      link := fun hl => by
        have ha : g.aborted = true := by simpa [settle, outcome?] using hl
        exact ⟨by simp [settle, ha], .inl ha⟩
      aborted_eq := rfl
      waiters := rfl }

theorem progress_callOff (g : Generation α) (reason : String) : Progress g (g.callOff reason) where
  number := rfl
  aborted := id
  cancelled _ := Token.cancelled_cancel g.token (some reason)
  outcome _ := id
  link h := ⟨rfl, h⟩
  aborted_eq := rfl
  waiters := rfl

theorem progress_expire (g : Generation α) : Progress g g.expire := by
  rw [expire]
  split
  · exact Progress.refl g
  · exact ⟨⟨⟨rfl, id, id, fun _ => id, fun h => ⟨rfl, h⟩⟩, rfl⟩, rfl⟩

theorem progress_giveUp (g : Generation α) (limit : String) : Progress g (g.giveUp limit) := by
  rw [giveUp]
  split
  · exact progress_callOff g _
  · exact Progress.refl g

theorem progress_revoke (g : Generation α) : Progress g g.revoke := by
  rw [revoke]
  split
  · exact Progress.refl g
  · exact progress_callOff g _

/-- What is left of a generation when one who waits for it leaves. -/
def left (g : Generation α) (cancelled : Bool) : Generation α :=
  if cancelled && g.leave.waiters = 0 && !g.isSettled then g.leave.abort else g.leave

theorem later_left (g : Generation α) (cancelled : Bool) : Later g (g.left cancelled) := by
  rw [left]
  split
  case isFalse => exact (steady_leave g).toLater
  case isTrue h =>
    simp only [Bool.and_eq_true, Bool.not_eq_true', isSettled_eq_false_iff] at h
    exact (steady_leave g).toLater.trans (later_abort h.2)

@[simp] theorem waiters_left (g : Generation α) (cancelled : Bool) :
    (g.left cancelled).waiters = g.waiters - 1 := by
  rw [left]
  split <;> rfl

@[simp] theorem outcome?_left (g : Generation α) (cancelled : Bool) :
    (g.left cancelled).outcome? = g.outcome? := by
  rw [left]
  split <;> rfl

/-- Whoever leaves without an outcome leaves others behind, or the load is aborted. -/
theorem waiters_left_pos {g : Generation α} (hr : g.outcome? = none)
    (ha : (g.left true).aborted = false) : 0 < (g.left true).waiters := by
  rw [left] at ha ⊢
  split at ha
  case isTrue => cases ha
  case isFalse hc =>
    rw [if_neg hc]
    have hw : ¬ g.leave.waiters = 0 := by simpa [(isSettled_eq_false_iff g).mpr hr] using hc
    omega

theorem aborted_left {g : Generation α} {cancelled : Bool}
    (h : (g.left cancelled).aborted = true) :
    g.aborted = true ∨
      (g.left cancelled).waiters = 0 ∧ (g.left cancelled).token.cancelled = true := by
  rw [left] at h ⊢
  split at h
  case isFalse => exact .inl h
  case isTrue hc =>
    rw [if_pos hc]
    simp only [Bool.and_eq_true, decide_eq_true_eq] at hc
    exact .inr ⟨hc.1.2, Token.cancelled_cancel g.token _⟩

end Generation

namespace Shared

/-! ### Numbers -/

/-- Generations are numbered from one on in the order of their start; the latest comes first. -/
def Numbered : List (Generation α) → Prop
  | [] => True
  | g :: rest => g.number = rest.length + 1 ∧ Numbered rest

theorem Numbered.le_length {gens : List (Generation α)} (h : Numbered gens) {g : Generation α}
    (hg : g ∈ gens) : g.number ≤ gens.length := by
  induction gens with
  | nil => cases hg
  | cons a rest ih =>
    rcases List.mem_cons.mp hg with rfl | hg
    · exact Nat.le_of_eq h.1
    · exact Nat.le_succ_of_le (ih h.2 hg)

theorem Numbered.find?_eq {gens : List (Generation α)} (h : Numbered gens) {g : Generation α}
    (hg : g ∈ gens) : gens.find? (fun x => x.number = g.number) = some g := by
  induction gens with
  | nil => cases hg
  | cons a rest ih =>
    rcases List.mem_cons.mp hg with rfl | hg
    · simp
    · have hne : ¬ a.number = g.number := by
        have hle := h.2.le_length hg
        have hlast := h.1
        omega
      rw [List.find?_cons_of_neg (by simpa using hne), ih h.2 hg]

theorem Numbered.later {gens gens' : List (Generation α)} (h : Numbered gens)
    (hl : List.Forall₂ Generation.Later gens gens') : Numbered gens' := by
  induction hl with
  | nil => trivial
  | cons hg hrest ih => exact ⟨by rw [hg.number, h.1, hrest.length_eq], ih h.2⟩

theorem map_number_eq_range' {gens : List (Generation α)} (h : Numbered gens) :
    gens.map Generation.number = (List.range' 1 gens.length).reverse := by
  induction gens with
  | nil => rfl
  | cons a rest ih =>
    rw [List.map_cons, ih h.2, h.1, List.length_cons, List.range'_1_concat, List.reverse_append]
    simp [Nat.add_comm]

theorem mem_of_find? {s : Shared α} {n : Nat} {g : Generation α} (h : s.find? n = some g) :
    g ∈ s.generations ∧ g.number = n :=
  ⟨List.mem_of_find?_eq_some h, by simpa using List.find?_some h⟩

/-! ### Changing one generation -/

theorem mem_modify {s : Shared α} {n : Nat} {f : Generation α → Generation α} {g' : Generation α} :
    g' ∈ (s.modify n f).generations ↔
      ∃ g ∈ s.generations, (if g.number = n then f g else g) = g' :=
  List.mem_map

theorem forall₂_modify {R : Generation α → Generation α → Prop} (s : Shared α) (n : Nat)
    {f : Generation α → Generation α} (hR : ∀ g ∈ s.generations, R g g)
    (hf : ∀ g ∈ s.generations, g.number = n → R g (f g)) :
    List.Forall₂ R s.generations (s.modify n f).generations := by
  refine List.forall₂_map_right_iff.mpr (List.forall₂_same.mpr fun g hg => ?_)
  split
  case isTrue h => exact hf g hg h
  case isFalse => exact hR g hg

/-- A later member for every member of the list before. -/
theorem exists_later {R : Generation α → Generation α → Prop} {gens gens' : List (Generation α)}
    (h : List.Forall₂ R gens gens') {g : Generation α} (hg : g ∈ gens) : ∃ g' ∈ gens', R g g' := by
  induction h with
  | nil => cases hg
  | cons hab _ ih =>
    rcases List.mem_cons.mp hg with rfl | hg
    · exact ⟨_, List.mem_cons_self, hab⟩
    · obtain ⟨g', hg', hR⟩ := ih hg
      exact ⟨g', List.mem_cons_of_mem _ hg', hR⟩

/-- An earlier member for every member of the list after. -/
theorem exists_earlier {R : Generation α → Generation α → Prop} {gens gens' : List (Generation α)}
    (h : List.Forall₂ R gens gens') {g' : Generation α} (hg : g' ∈ gens') :
    ∃ g ∈ gens, R g g' :=
  exists_later h.flip hg

theorem forall₂_trans {R : Generation α → Generation α → Prop}
    (hR : ∀ {a b c}, R a b → R b c → R a c) {l l' l'' : List (Generation α)}
    (h : List.Forall₂ R l l') (h' : List.Forall₂ R l' l'') : List.Forall₂ R l l'' := by
  induction h generalizing l'' with
  | nil => exact h'
  | cons hab _ ih =>
    cases h' with
    | cons hbc hrest => exact .cons (hR hab hbc) (ih hrest)

theorem forall₂_later_refl (s : Shared α) :
    List.Forall₂ Generation.Later s.generations s.generations :=
  List.forall₂_same.mpr fun g _ => .refl g

theorem forall₂_later_trans {l l' l'' : List (Generation α)}
    (h : List.Forall₂ Generation.Later l l') (h' : List.Forall₂ Generation.Later l' l'') :
    List.Forall₂ Generation.Later l l'' :=
  forall₂_trans (fun h h' => h.trans h') h h'

theorem forall₂_later_modify (s : Shared α) (n : Nat) {f : Generation α → Generation α}
    (hf : ∀ g ∈ s.generations, g.number = n → Generation.Later g (f g)) :
    List.Forall₂ Generation.Later s.generations (s.modify n f).generations :=
  forall₂_modify s n (fun g _ => .refl g) hf

/-! ### Loads, time limits and closing -/

/-- `s'` is what `s` can have become while nobody came or left. -/
structure Advances (s s' : Shared α) : Prop where
  current : s'.current = s.current
  generations : List.Forall₂ Generation.Progress s.generations s'.generations

theorem Advances.refl (s : Shared α) : Advances s s :=
  ⟨rfl, List.forall₂_same.mpr fun g _ => Generation.Progress.refl g⟩

theorem Advances.of_eq {s s' : Shared α} (hc : s'.current = s.current)
    (hg : s'.generations = s.generations) : Advances s s' :=
  ⟨hc, hg ▸ (Advances.refl s).generations⟩

theorem Advances.trans {s s' s'' : Shared α} (h : Advances s s') (h' : Advances s' s'') :
    Advances s s'' :=
  ⟨h'.current.trans h.current, forall₂_trans (fun h h' => h.trans h') h.generations h'.generations⟩

theorem Advances.later {s s' : Shared α} (h : Advances s s') :
    List.Forall₂ Generation.Later s.generations s'.generations :=
  h.generations.imp fun _ _ h => h.toLater

theorem Advances.of_modify (s : Shared α) (n : Nat) {f : Generation α → Generation α}
    (hf : ∀ g, Generation.Progress g (f g)) : Advances s (s.modify n f) :=
  ⟨rfl, forall₂_modify s n (fun g _ => .refl g) fun g _ _ => hf g⟩

theorem advances_launch (s : Shared α) (n : Nat) : Advances s (s.launch n) :=
  .of_modify s n Generation.progress_launch

theorem advances_begin (s : Shared α) : Advances s s.begin := by
  rw [begin]
  split
  · exact advances_launch s _
  · exact Advances.refl s

theorem advances_finish (s : Shared α) (n : Nat) (result : Except Failure α) :
    Advances s (s.finish n result) :=
  .of_modify s n fun g => g.progress_finish s.root s.limit result

theorem advances_expire (s : Shared α) (n : Nat) : Advances s (s.expire n) := by
  rw [expire]
  split
  · exact .of_modify s n Generation.progress_expire
  · exact Advances.refl s

theorem advances_giveUp (s : Shared α) (n : Nat) : Advances s (s.giveUp n) :=
  .of_modify s n fun g => g.progress_giveUp _

theorem advances_timeOut (s : Shared α) (n : Nat) : Advances s (s.timeOut n) :=
  (advances_expire s n).trans (advances_giveUp _ n)

theorem advances_shut (s : Shared α) : Advances s s.shut := by
  rw [shut]
  split
  · exact Advances.refl s
  · exact .of_eq rfl rfl

theorem advances_revoke (s : Shared α) : Advances s s.revoke := by
  rw [revoke]
  split
  · exact (Advances.of_modify s _ Generation.progress_revoke).trans (.of_eq rfl rfl)
  · exact Advances.refl s

theorem advances_close (s : Shared α) : Advances s s.close :=
  (advances_shut s).trans (advances_revoke _)

/-! ### Coming and leaving -/

/-- The two ways to start to wait: for a generation that is there, or for a new one. -/
theorem wait_eq_ok {s s' : Shared α} {target : Option Nat} {n : Nat}
    (h : s.wait target = .ok (n, s')) :
    s.closed = false ∧ (target = some n ∧ s' = s.attach n ∨
      target = none ∧ n = s.generations.length + 1 ∧ s' = s.start.1.attach n) := by
  unfold wait at h
  split at h
  case isTrue => cases h
  case isFalse hopen =>
    refine ⟨by simpa using hopen, ?_⟩
    cases target with
    | some m =>
      simp only [Except.ok.injEq, Prod.mk.injEq] at h
      exact .inl ⟨congrArg some h.1, by rw [← h.2, h.1]⟩
    | none =>
      simp only [Except.ok.injEq, Prod.mk.injEq] at h
      exact .inr ⟨rfl, h.1.symm, by rw [← h.2, ← h.1]⟩

theorem find?_modify (s : Shared α) (n : Nat) {f : Generation α → Generation α}
    (hf : ∀ g, (f g).number = g.number) (m : Nat) :
    (s.modify n f).find? m = (s.find? m).map fun g => if g.number = n then f g else g := by
  rw [find?, modify]
  rw [List.find?_map]
  congr 2
  funext g
  by_cases h : g.number = n <;> simp [h, hf]

theorem Numbered.eq_of_find? {s : Shared α} (h : Numbered s.generations) {n : Nat}
    {g g' : Generation α} (hf : s.find? n = some g) (hg : g' ∈ s.generations)
    (hn : g'.number = n) : g' = g := by
  subst hn
  exact Option.some.inj ((h.find?_eq hg).symm.trans hf)

/-- Whoever leaves changes the generation that was waited for, and no other. -/
theorem generations_release {s : Shared α} (h : Numbered s.generations) (n : Nat)
    (cancelled : Bool) :
    (s.release n cancelled).generations =
      (s.modify n fun g => g.left cancelled).generations := by
  have habort : ∀ s : Shared α, (s.abort n).generations = (s.modify n .abort).generations := by
    intro s
    unfold abort
    dsimp only
    split <;> rfl
  rw [release]
  simp only [find?_modify s n (f := Generation.leave) (fun _ => rfl)]
  cases hf : s.find? n with
  | none =>
    refine List.map_congr_left fun g hg => ?_
    have hne : ¬ g.number = n := fun hn => by
      subst hn
      rw [find?, h.find?_eq hg] at hf
      cases hf
    simp only [hne, if_false]
  | some g₀ =>
    have hn₀ := (mem_of_find? hf).2
    simp only [Option.map_some, hn₀, if_true]
    split
    case isTrue hc =>
      rw [habort]
      simp only [modify, List.map_map]
      refine List.map_congr_left fun g hg => ?_
      by_cases hn : g.number = n
      · obtain rfl := h.eq_of_find? hf hg hn
        have hc' : (cancelled && g.leave.waiters = 0 && !g.isSettled) = true := hc
        have hn' : g.leave.number = n := hn
        simp only [Function.comp_apply, hn, hn', if_true, Generation.left, hc']
      · simp only [Function.comp_apply, hn, if_false]
    case isFalse hc =>
      refine List.map_congr_left fun g hg => ?_
      by_cases hn : g.number = n
      · obtain rfl := h.eq_of_find? hf hg hn
        have hc' : ¬ (cancelled && g.leave.waiters = 0 && !g.isSettled) = true := hc
        simp only [hn, if_true, Generation.left, hc', if_false, Bool.false_eq_true]
      · simp only [hn, if_false]

/-- Leaving neither closes the value nor changes what closing has still to do. -/
theorem closed_release (s : Shared α) (n : Nat) (cancelled : Bool) :
    (s.release n cancelled).closed = s.closed ∧ (s.release n cancelled).closing = s.closing := by
  unfold release abort
  dsimp only
  split
  · split
    · split <;> exact ⟨rfl, rfl⟩
    · exact ⟨rfl, rfl⟩
  · exact ⟨rfl, rfl⟩

/-! ### All together -/

/-- `s'` is what `s` can have become: some generations were started, and those that were there went
on. -/
def Grows (s s' : Shared α) : Prop :=
  ∃ started gens, s'.generations = started ++ gens ∧
    List.Forall₂ Generation.Later s.generations gens

theorem Grows.of_forall₂ {s s' : Shared α}
    (h : List.Forall₂ Generation.Later s.generations s'.generations) : Grows s s' :=
  ⟨[], _, rfl, h⟩

theorem Advances.grows {s s' : Shared α} (h : Advances s s') : Grows s s' :=
  .of_forall₂ h.later

theorem Grows.refl (s : Shared α) : Grows s s := (Advances.refl s).grows

theorem Grows.trans {s s' s'' : Shared α} (h : Grows s s') (h' : Grows s' s'') : Grows s s'' := by
  obtain ⟨started, gens, hs, hg⟩ := h
  obtain ⟨started', gens', hs', hg'⟩ := h'
  rw [hs] at hg'
  refine ⟨started' ++ gens'.take started.length, gens'.drop started.length, ?_, ?_⟩
  · rw [hs', List.append_assoc, List.take_append_drop]
  · have hdrop := List.forall₂_drop started.length hg'
    rw [List.drop_left] at hdrop
    exact forall₂_later_trans hg hdrop

theorem Grows.exists_later {s s' : Shared α} (h : Grows s s') {g : Generation α}
    (hg : g ∈ s.generations) : ∃ g' ∈ s'.generations, Generation.Later g g' := by
  obtain ⟨started, gens, hs, hl⟩ := h
  obtain ⟨g', hg', hlater⟩ := Shared.exists_later hl hg
  exact ⟨g', by rw [hs]; exact List.mem_append_right _ hg', hlater⟩

theorem grows_wait {s s' : Shared α} {target : Option Nat} {n : Nat}
    (h : s.wait target = .ok (n, s')) : Grows s s' := by
  have hattach : ∀ s : Shared α, Grows s (s.attach n) := fun s =>
    .of_forall₂ (forall₂_later_modify s n fun g _ _ => (Generation.steady_attach g).toLater)
  obtain ⟨-, ⟨-, rfl⟩ | ⟨-, -, rfl⟩⟩ := wait_eq_ok h
  · exact hattach s
  · have hstart : Grows s s.start.1 := ⟨[_], s.generations, rfl, forall₂_later_refl s⟩
    exact hstart.trans (hattach _)

theorem forall₂_later_release {s : Shared α} (h : Numbered s.generations) (n : Nat)
    (cancelled : Bool) :
    List.Forall₂ Generation.Later s.generations (s.release n cancelled).generations := by
  rw [generations_release h]
  exact forall₂_later_modify s n fun g _ _ => g.later_left cancelled

theorem grows_release {s : Shared α} (h : Numbered s.generations) (n : Nat) (cancelled : Bool) :
    Grows s (s.release n cancelled) :=
  .of_forall₂ (forall₂_later_release h n cancelled)

end Shared

end Concordance.Sharing
