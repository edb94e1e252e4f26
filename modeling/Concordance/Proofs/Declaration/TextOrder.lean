import Concordance.Proofs.Syntax.Starts

/-!
# The statements of the module level and the order of the text

What a name is bound to at the end of a module is decided by the last of its bindings, and of two
classes of a name the later one counts. Both are read off the list of the statements of the module
level. Of a guard that list has the handlers behind everything else, while in the text the blocks
that run after the guarded one, or always, stand behind the handlers.

So the list is in the order of the text if, and only if, no guard has handlers and something behind
them; then the last statement of some kind in the list is the last one in the text.

## Main definitions

* `textStatements`: the statements of the module level in the order of a text
* `Node.KeepsOrder`: a guard has no handlers, or nothing behind them
* `Node.StandsBefore`: the order of the text

## Main results

* `moduleStatements_perm_textStatements`: the list has the statements of the text
* `pairwise_standsBefore_moduleStatements`: when it has them in order
-/

namespace Concordance

open Syntax

/-! ### The order of the text -/

mutual

/-- The statements within a branch, guard or context in the order of a text. -/
def textWithin : Node → List Node
  | .branch _ _ body orElse => textStatements body ++ textStatements orElse
  | .guarded _ _ body handlers orElse final =>
    textStatements body ++ textHandlers handlers ++ textStatements orElse ++ textStatements final
  | .within _ _ _ body => textStatements body
  | .handler _ _ _ body => textStatements body
  | _ => []

/-- The statements of the module level in the order of a text. -/
def textStatements : List Node → List Node
  | [] => []
  | n :: rest => n :: (textWithin n ++ textStatements rest)

/-- The statements within handlers in the order of a text. -/
def textHandlers : List Node → List Node
  | [] => []
  | h :: rest => textWithin h ++ textHandlers rest

end

/-- Whether a node holds statements of the module level. -/
def Syntax.Node.opensBlock : Node → Bool
  | .branch .. => true
  | .guarded .. => true
  | .within .. => true
  | .handler .. => true
  | _ => false

theorem textWithin_of_not_opensBlock {n : Node} (h : n.opensBlock = false) :
    textWithin n = [] := by
  cases n <;> first | rfl | cases h

/-- The handlers of a guard are the last of it in the text, as they are among its statements. -/
def Syntax.Node.KeepsOrder : Node → Prop
  | .guarded _ _ _ handlers orElse final => handlers = [] ∨ orElse = [] ∧ final = []
  | _ => True

theorem innerStatements_of_not_opensBlock {n : Node} (h : n.opensBlock = false) :
    innerStatements n = [] := by
  cases n <;> first | rfl | cases h

/-- What is said of the statements of the module level, of those within a node and of those within
handlers is shown along the nodes that hold others. -/
theorem level_induction {P : Node → Prop} {Q R : List Node → Prop}
    (flat : ∀ n : Node, n.opensBlock = false → P n)
    (branch : ∀ p test body orElse, R body → R orElse → P (.branch p test body orElse))
    (guarded : ∀ p group body handlers orElse final, R body → R orElse → R final → Q handlers →
      P (.guarded p group body handlers orElse final))
    (within : ∀ p async items body, R body → P (.within p async items body))
    (handler : ∀ p type name body, R body → P (.handler p type name body))
    (noHandler : Q []) (handlers : ∀ n rest, P n → Q rest → Q (n :: rest))
    (nothing : R []) (statements : ∀ n rest, P n → R rest → R (n :: rest)) :
    (∀ n, P n) ∧ (∀ ns, Q ns) ∧ ∀ ns, R ns := by
  refine innerStatements.mutual_induct P Q R branch guarded within handler ?_ noHandler handlers
    nothing statements
  intro n hbranch hguarded hwithin hhandler
  refine flat n ?_
  cases n with
  | branch p test body orElse => exact absurd rfl (hbranch p test body orElse)
  | guarded p group body handlers orElse final =>
    exact absurd rfl (hguarded p group body handlers orElse final)
  | within p async items body => exact absurd rfl (hwithin p async items body)
  | handler p type name body => exact absurd rfl (hhandler p type name body)
  | _ => rfl

/-! ### The same statements -/

theorem perm_text : (∀ n, (innerStatements n).Perm (textWithin n)) ∧
    (∀ hs, (handlerStatements hs).Perm (textHandlers hs)) ∧
    ∀ ns, (moduleStatements ns).Perm (textStatements ns) := by
  refine level_induction ?flat ?branch ?guarded ?within ?handler ?noHandler ?handlers ?nothing
    ?statements
  case flat =>
    intro n hflat
    rw [innerStatements_of_not_opensBlock hflat, textWithin_of_not_opensBlock hflat]
  case branch =>
    intro p test body orElse hbody horElse
    exact hbody.append horElse
  case guarded =>
    intro p group body handlers orElse final hbody horElse hfinal hhandlers
    rw [innerStatements, textWithin, List.append_assoc, List.append_assoc, List.append_assoc,
      List.append_assoc, ← List.append_assoc (moduleStatements orElse)]
    refine hbody.append (List.perm_append_comm.trans ?_)
    exact hhandlers.append (horElse.append hfinal)
  case within => exact fun _ _ _ _ hbody => hbody
  case handler => exact fun _ _ _ _ hbody => hbody
  case noHandler => exact .nil
  case handlers => exact fun _ _ hn hrest => hn.append hrest
  case nothing => exact .nil
  case statements => exact fun n _ hn hrest => (hn.append hrest).cons n

/-- The list of the module level has the statements of the text. -/
theorem moduleStatements_perm_textStatements (ns : List Node) :
    (moduleStatements ns).Perm (textStatements ns) :=
  perm_text.2.2 ns

/-! ### Among all statements of the text -/

theorem sublist_all : (∀ n, (textWithin n).Sublist (statementsWithin n)) ∧
    (∀ hs, (textHandlers hs).Sublist (armStatements hs)) ∧
    ∀ ns, (textStatements ns).Sublist (allStatements ns) := by
  refine level_induction ?flat ?branch ?guarded ?within ?handler ?noHandler ?handlers ?nothing
    ?statements
  case flat =>
    intro n hflat
    rw [textWithin_of_not_opensBlock hflat]
    exact List.nil_sublist _
  case branch => exact fun _ _ _ _ hbody horElse => hbody.append horElse
  case guarded =>
    intro p group body handlers orElse final hbody horElse hfinal hhandlers
    exact ((hbody.append hhandlers).append horElse).append hfinal
  case within => exact fun _ _ _ _ hbody => hbody
  case handler => exact fun _ _ _ _ hbody => hbody
  case noHandler => exact List.nil_sublist _
  case handlers => exact fun _ _ hn hrest => hn.append hrest
  case nothing => exact List.nil_sublist _
  case statements => exact fun n _ hn hrest => (hn.append hrest).cons_cons n

/-- The statements of the module level stand in the order of its text, and handlers are that. -/
theorem pairwise_before_textStatements {source : String} {body : List Node}
    (h : parseModule source = .ok body) :
    ((textStatements body).map Node.position).Pairwise Position.Before ∧
      ∀ n ∈ textStatements body, n.Handled := by
  obtain ⟨hplaces, hhandled⟩ := pairwise_before_allStatements h
  have hsublist := sublist_all.2.2 body
  exact ⟨hplaces.sublist (hsublist.map _), fun n hn => hhandled n (hsublist.subset hn)⟩

/-! ### Where the list keeps the order -/

/-- Where all guards keep the order of the text, so does the list. -/
theorem eq_text :
    (∀ n : Node, n.KeepsOrder → n.Handled →
      (∀ m ∈ innerStatements n, m.KeepsOrder ∧ m.Handled) → innerStatements n = textWithin n) ∧
    (∀ hs : List Node, (∀ h ∈ hs, h.IsHandler) →
      (∀ m ∈ handlerStatements hs, m.KeepsOrder ∧ m.Handled) →
      handlerStatements hs = textHandlers hs) ∧
    ∀ ns : List Node, (∀ m ∈ moduleStatements ns, m.KeepsOrder ∧ m.Handled) →
      moduleStatements ns = textStatements ns := by
  refine level_induction ?flat ?branch ?guarded ?within ?handler ?noHandler ?handlers ?nothing
    ?statements
  case flat =>
    intro n hflat _ _ _
    rw [innerStatements_of_not_opensBlock hflat, textWithin_of_not_opensBlock hflat]
  case branch =>
    intro p test body orElse hbody horElse _ _ h
    obtain ⟨h, h'⟩ := List.forall_mem_append.mp h
    rw [innerStatements, textWithin, hbody h, horElse h']
  case guarded =>
    intro p group body handlers orElse final hbody horElse hfinal hhandlers hkeeps hhandled h
    simp only [innerStatements, List.forall_mem_append] at h
    obtain ⟨⟨⟨h₁, h₂⟩, h₃⟩, h₄⟩ := h
    rw [innerStatements, textWithin, hbody h₁, horElse h₂, hfinal h₃, hhandlers hhandled h₄]
    rcases hkeeps with rfl | ⟨rfl, rfl⟩
    · simp [textHandlers]
    · simp [textStatements]
  case within => exact fun _ _ _ _ hbody _ _ => hbody
  case handler => exact fun _ _ _ _ hbody _ _ => hbody
  case noHandler => exact fun _ _ => rfl
  case handlers =>
    intro n rest hn hrest hhandlers h
    obtain ⟨hhandler, hhandlers⟩ := List.forall_mem_cons.mp hhandlers
    obtain ⟨h, h'⟩ := List.forall_mem_append.mp h
    have hown : n.KeepsOrder ∧ n.Handled := by
      cases n with
      | handler => exact ⟨trivial, trivial⟩
      | _ => exact hhandler.elim
    rw [handlerStatements, textHandlers, hn hown.1 hown.2 h, hrest hhandlers h']
  case nothing => exact fun _ => rfl
  case statements =>
    intro n rest hn hrest h
    obtain ⟨⟨hkeeps, hhandled⟩, h⟩ := List.forall_mem_cons.mp h
    obtain ⟨h, h'⟩ := List.forall_mem_append.mp h
    rw [moduleStatements, textStatements, hn hkeeps hhandled h, hrest h']

/-! ### Where it does not -/

theorem parts_sublist (as bs cs ds : List Node) :
    as.Sublist (as ++ bs ++ cs ++ ds) ∧ bs.Sublist (as ++ bs ++ cs ++ ds) ∧
      cs.Sublist (as ++ bs ++ cs ++ ds) ∧ ds.Sublist (as ++ bs ++ cs ++ ds) := by
  have hds := List.sublist_append_right (as ++ bs ++ cs) ds
  have habcs := List.sublist_append_left (as ++ bs ++ cs) ds
  have habs := (List.sublist_append_left (as ++ bs) cs).trans habcs
  exact ⟨(List.sublist_append_left as bs).trans habs, (List.sublist_append_right as bs).trans habs,
    (List.sublist_append_right (as ++ bs) cs).trans habcs, hds⟩

/-- What is within a statement of the list has the same order in the list, and the same order in
the text. -/
theorem sublist_within :
    (∀ m : Node, ∀ n ∈ innerStatements m,
      (innerStatements n).Sublist (innerStatements m) ∧ (textWithin n).Sublist (textWithin m)) ∧
    (∀ hs : List Node, ∀ n ∈ handlerStatements hs,
      (innerStatements n).Sublist (handlerStatements hs) ∧
        (textWithin n).Sublist (textHandlers hs)) ∧
    ∀ ns : List Node, ∀ n ∈ moduleStatements ns,
      (innerStatements n).Sublist (moduleStatements ns) ∧
        (textWithin n).Sublist (textStatements ns) := by
  have hlift {n : Node} {xs ys xs' ys' : List Node}
      (h : (innerStatements n).Sublist xs ∧ (textWithin n).Sublist ys) (hx : xs.Sublist xs')
      (hy : ys.Sublist ys') : (innerStatements n).Sublist xs' ∧ (textWithin n).Sublist ys' :=
    ⟨h.1.trans hx, h.2.trans hy⟩
  refine level_induction ?flat ?branch ?guarded ?within ?handler ?noHandler ?handlers ?nothing
    ?statements
  case flat =>
    intro m hflat n hn
    rw [innerStatements_of_not_opensBlock hflat] at hn
    cases hn
  case branch =>
    intro p test body orElse hbody horElse n hn
    rcases List.mem_append.mp hn with hn | hn
    · exact hlift (hbody n hn) (List.sublist_append_left _ _) (List.sublist_append_left _ _)
    · exact hlift (horElse n hn) (List.sublist_append_right _ _) (List.sublist_append_right _ _)
  case guarded =>
    intro p group body handlers orElse final hbody horElse hfinal hhandlers n hn
    obtain ⟨h₁, h₂, h₃, h₄⟩ := parts_sublist (moduleStatements body) (moduleStatements orElse)
      (moduleStatements final) (handlerStatements handlers)
    obtain ⟨h₁', h₂', h₃', h₄'⟩ := parts_sublist (textStatements body) (textHandlers handlers)
      (textStatements orElse) (textStatements final)
    simp only [innerStatements, List.mem_append] at hn
    rcases hn with ((hn | hn) | hn) | hn
    · exact hlift (hbody n hn) h₁ h₁'
    · exact hlift (horElse n hn) h₂ h₃'
    · exact hlift (hfinal n hn) h₃ h₄'
    · exact hlift (hhandlers n hn) h₄ h₂'
  case within => exact fun _ _ _ _ hbody => hbody
  case handler => exact fun _ _ _ _ hbody => hbody
  case noHandler => exact List.forall_mem_nil _
  case handlers =>
    intro m rest hm hrest n hn
    rcases List.mem_append.mp hn with hn | hn
    · exact hlift (hm n hn) (List.sublist_append_left _ _) (List.sublist_append_left _ _)
    · exact hlift (hrest n hn) (List.sublist_append_right _ _) (List.sublist_append_right _ _)
  case nothing => exact List.forall_mem_nil _
  case statements =>
    intro m rest hm hrest n hn
    have hbehind : (innerStatements n).Sublist (innerStatements m ++ moduleStatements rest) ∧
        (textWithin n).Sublist (textWithin m ++ textStatements rest) := by
      rcases List.mem_cons.mp hn with rfl | hn
      · exact ⟨List.sublist_append_left _ _, List.sublist_append_left _ _⟩
      · rcases List.mem_append.mp hn with hn | hn
        · exact hlift (hm n hn) (List.sublist_append_left _ _) (List.sublist_append_left _ _)
        · exact hlift (hrest n hn) (List.sublist_append_right _ _) (List.sublist_append_right _ _)
    exact hlift hbehind (List.sublist_cons_self _ _) (List.sublist_cons_self _ _)

theorem exists_mem_moduleStatements {ns : List Node} (h : ns ≠ []) :
    ∃ n, n ∈ moduleStatements ns := by
  obtain ⟨n, rest, rfl⟩ := List.exists_cons_of_ne_nil h
  exact ⟨n, List.mem_cons_self⟩

/-- A guard whose statements stand in order, in the list and in the text, has no handlers or nothing
behind them. -/
theorem keepsOrder_of_pairwise {R : Node → Node → Prop} (hR : ∀ {n n'}, R n n' → ¬ R n' n)
    {n : Node} (hhandled : n.Handled) (hlist : (innerStatements n).Pairwise R)
    (htext : (textWithin n).Pairwise R) : n.KeepsOrder := by
  cases n with
  | guarded p group body handlers orElse final =>
    by_contra hkeeps
    simp only [Node.KeepsOrder, not_or, not_and_or] at hkeeps
    obtain ⟨hhandlers, hbehind⟩ := hkeeps
    obtain ⟨x, hx⟩ : ∃ x, x ∈ handlerStatements handlers := by
      obtain ⟨h, rest, rfl⟩ := List.exists_cons_of_ne_nil hhandlers
      have hhandler := hhandled h List.mem_cons_self
      cases h with
      | handler p type name body =>
        obtain ⟨x, hx⟩ := exists_mem_moduleStatements hhandler
        exact ⟨x, List.mem_append_left _ hx⟩
      | _ => exact hhandler.elim
    obtain ⟨y, hy⟩ : ∃ y, y ∈ moduleStatements orElse ++ moduleStatements final := by
      rcases hbehind with horElse | hfinal
      · obtain ⟨y, hy⟩ := exists_mem_moduleStatements horElse
        exact ⟨y, List.mem_append_left _ hy⟩
      · obtain ⟨y, hy⟩ := exists_mem_moduleStatements hfinal
        exact ⟨y, List.mem_append_right _ hy⟩
    have hx' : x ∈ textHandlers handlers := (perm_text.2.1 handlers).mem_iff.mp hx
    have hy' : y ∈ textStatements orElse ++ textStatements final :=
      ((moduleStatements_perm_textStatements orElse).append
        (moduleStatements_perm_textStatements final)).mem_iff.mp hy
    rw [innerStatements, List.append_assoc (moduleStatements body)] at hlist
    rw [textWithin, List.append_assoc] at htext
    have hyx : R y x := (List.pairwise_append.mp hlist).2.2 y (List.mem_append_right _ hy) x hx
    have hxy : R x y := (List.pairwise_append.mp htext).2.2 x (List.mem_append_right _ hx') y hy'
    exact hR hxy hyx
  | _ => trivial

/-! ### Modules -/

/-- A statement stands before another one. -/
def Syntax.Node.StandsBefore (n n' : Node) : Prop := n.position.Before n'.position

instance (n n' : Node) : Decidable (n.StandsBefore n') :=
  inferInstanceAs (Decidable (n.position.Before n'.position))

/-- Of a list in order the last one of some kind stands behind all others of that kind. -/
theorem eq_or_standsBefore_getLast {ns : List Node} (h : ns.Pairwise Node.StandsBefore)
    {p : Node → Bool} {n n' : Node} (hlast : (ns.filter p).getLast? = some n) (hn' : n' ∈ ns)
    (hp : p n') : n' = n ∨ n'.StandsBefore n := by
  obtain ⟨init, hinit⟩ := List.getLast?_eq_some_iff.mp hlast
  have hordered := h.sublist (List.filter_sublist (p := p))
  have hmem : n' ∈ ns.filter p := List.mem_filter.mpr ⟨hn', hp⟩
  rw [hinit] at hordered hmem
  rcases List.mem_append.mp hmem with hmem | hmem
  · exact .inr ((List.pairwise_append.mp hordered).2.2 n' hmem n (List.mem_singleton.mpr rfl))
  · exact .inl (List.mem_singleton.mp hmem)

/-- **The statements of the module level are listed in the order of the text exactly where no guard
has handlers and something behind them.** Then the last statement of a kind in the list, such as the
last that binds a name, is the last one in the text. -/
theorem pairwise_standsBefore_moduleStatements {source : String} {body : List Node}
    (h : parseModule source = .ok body) :
    ((moduleStatements body).Pairwise Node.StandsBefore ↔
      ∀ n ∈ moduleStatements body, n.KeepsOrder) ∧
    ((∀ n ∈ moduleStatements body, n.KeepsOrder) →
      ∀ (p : Node → Bool) (n n' : Node), ((moduleStatements body).filter p).getLast? = some n →
        n' ∈ moduleStatements body → p n' → n' = n ∨ n'.StandsBefore n) := by
  obtain ⟨hplaces, hhandled⟩ := pairwise_before_textStatements h
  have htext : (textStatements body).Pairwise Node.StandsBefore := by
    rw [List.pairwise_map] at hplaces
    exact hplaces
  have hlisted : ∀ n ∈ moduleStatements body, n.Handled := fun n hn =>
    hhandled n ((moduleStatements_perm_textStatements body).mem_iff.mp hn)
  have hordered (hkeeps : ∀ n ∈ moduleStatements body, n.KeepsOrder) :
      (moduleStatements body).Pairwise Node.StandsBefore := by
    rwa [eq_text.2.2 body fun n hn => ⟨hkeeps n hn, hlisted n hn⟩]
  refine ⟨⟨fun hlist n hn => ?_, hordered⟩,
    fun hkeeps p n n' hlast hn' hp => eq_or_standsBefore_getLast (hordered hkeeps) hlast hn' hp⟩
  obtain ⟨hinner, hwithin⟩ := sublist_within.2.2 body n hn
  exact keepsOrder_of_pairwise Position.Before.asymm (hlisted n hn) (hlist.sublist hinner)
    (htext.sublist hwithin)

theorem parseModule_eq_ok {source : String} (h : (parseModule source).toOption.isSome) :
    parseModule source = .ok ((parseModule source).toOption.getD []) := by
  cases hparse : parseModule source with
  | error e =>
    rw [hparse] at h
    cases h
  | ok body => rfl

/-- Branches within each other, contexts and guards with one kind of block behind them are listed in
the order of the text. -/
theorem standsBefore_nested_blocks :
    let source := "if a:\n    try:\n        x = 1\n    except E:\n        x = 2\nelif b:\n    x = 3\n" ++
      "else:\n    with c:\n        x = 4\ntry:\n    x = 5\nfinally:\n    x = 6\n"
    let body := (parseModule source).toOption.getD []
    parseModule source = .ok body ∧ (moduleStatements body).Pairwise Node.StandsBefore ∧
      ∀ n ∈ moduleStatements body, n.KeepsOrder := by
  intro source body
  have hparsed : parseModule source = .ok body := parseModule_eq_ok (by decide +kernel)
  have hordered : (moduleStatements body).Pairwise Node.StandsBefore := by decide +kernel
  exact ⟨hparsed, hordered, (pairwise_standsBefore_moduleStatements hparsed).1.mp hordered⟩

/-- The list is not always in the order of the text: what stands in a handler is listed behind what
runs if there is nothing to handle. -/
theorem not_always_pairwise_standsBefore :
    ¬ ∀ (source : String) (body : List Node), parseModule source = .ok body →
      (moduleStatements body).Pairwise Node.StandsBefore := by
  intro h
  let source := "try:\n    x = 1\nexcept E:\n    x = 2\nelse:\n    x = 3\n"
  have hparsed : parseModule source = .ok ((parseModule source).toOption.getD []) :=
    parseModule_eq_ok (by decide +kernel)
  have hordered : ¬ (moduleStatements ((parseModule source).toOption.getD [])).Pairwise
      Node.StandsBefore := by decide +kernel
  exact hordered (h _ _ hparsed)

end Concordance
