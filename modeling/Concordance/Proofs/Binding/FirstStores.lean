import Concordance.Proofs.Binding.Receivers

/-!
# The store that declares a field

A field that a class declares by stores to its receivers alone has one declaring store, and each
store besides it is recorded as a reference to the field. The declaring store is in the first method
of the class that assigns to the field. Within that method it is the first one that is found level
by level, so it is the first one of the source where no later one is nested less deeply; otherwise
the first one is taken for a reference, and a later one for the declaration.

## Main definitions

* `SourceModule.StoredFirst`: what leads the stores to a field that a class declares by stores only

## Main results

* `SourceModule.findMember?_of_storedFirst`: the field is found on the class
* `SourceModule.declared_by_first_store`: the store that declares the field, and the others
* `SourceModule.not_always_declared_by_first_store`: a store that follows another one and declares
-/

namespace Concordance

open Syntax Binding

namespace SourceModule

variable {m : SourceModule} {container : Option String} {p : Place} {name : String}
  {bases keywords body decorators : List Node}

/-- A class declares a field by stores to its receivers only, and a store leads those of the first
method that assigns to the field. -/
structure StoredFirst (c : ClassName) (body : List Node) (attr : String) (first : Node) : Prop where
  only : (Members.atLevel c body).taken attr = false
  leads : ∃ before M after receiver, body = before ++ M :: after ∧
    (∀ N ∈ before, storeTo (methodStores N) attr = false) ∧ M.receiver? = some receiver ∧
      Leading receiver attr M first

theorem StoredFirst.mem {c : ClassName} {attr : String} {first : Node}
    (h : StoredFirst c body attr first) : (first, attr) ∈ body.flatMap methodStores := by
  obtain ⟨before, M, after, receiver, rfl, -, hM, hfirst⟩ := h.leads
  have hmem := List.mem_of_mem_head? (head?_stores_of_leading hfirst hM)
  exact List.mem_flatMap.mpr ⟨M, by simp, (List.mem_filter.mp hmem).1⟩

/-! ### Fields that are found -/

/-- A declared class is the one of its position, where no two of a module stand at one place. -/
theorem classDecl?_of_declares {c : Codebase} {i : Nat}
    (hm : c.modules[i]? = some (extractModule m))
    (hclasses : ((extractModule m).classes.map ClassDecl.position).Nodup)
    (hC : m.Declares container (.classDef p name bases keywords body decorators)) :
    ∃ x, extractClass m container (.classDef p name bases keywords body decorators) = some x ∧
      c.classDecl? ⟨i, ⟨p.line, p.column⟩⟩ = some x.own := by
  refine ⟨_, rfl, ?_⟩
  have hmem := all_subset_of_declares hC _ rfl (List.mem_append_right _ (List.mem_singleton_self _))
  rw [Codebase.classDecl?, hm, Option.bind_some]
  obtain ⟨d, hd⟩ := Option.isSome_iff_exists.mp (List.find?_isSome (p := fun d : ClassDecl =>
    d.position = ⟨p.line, p.column⟩) |>.mpr ⟨_, hmem, decide_eq_true rfl⟩)
  have hposition : d.position = ⟨p.line, p.column⟩ := by simpa using List.find?_some hd
  have heq := List.inj_on_of_nodup_map hclasses (List.mem_of_find?_eq_some hd) hmem hposition
  exact hd.trans (congrArg some heq)

/-- Members of a class that are fields only are found as such. -/
theorem ownMember?_of_fields {d : ClassDecl} {attr : String} {s : Symbol}
    (hmethods : d.methods.find? attr = none) (hproperties : d.properties.find? attr = none)
    (hfields : d.fields.find? attr = some s) : d.ownMember? attr = some s := by
  rw [ClassDecl.ownMember?, hmethods, hproperties, hfields]
  rfl

/-- A field that is declared by stores only is found on its class. -/
theorem findMember?_of_storedFirst {c : Codebase} {i : Nat}
    (hm : c.modules[i]? = some (extractModule m))
    (hclasses : ((extractModule m).classes.map ClassDecl.position).Nodup)
    (hC : m.Declares container (.classDef p name bases keywords body decorators)) {attr : String}
    {first : Node} (hfirst : StoredFirst (ClassName.of m name container) body attr first) :
    c.findMember? ⟨i, ⟨p.line, p.column⟩⟩ attr false =
      some ((ClassName.of m name container).field attr, ⟨i, ⟨p.line, p.column⟩⟩) := by
  obtain ⟨hmethods, hproperties, hfields⟩ := Members.find?_fields_ofBody hfirst.only
    (List.any_eq_true.mpr ⟨_, hfirst.mem, decide_eq_true rfl⟩)
  obtain ⟨x, hx, hdecl⟩ := classDecl?_of_declares hm hclasses hC
  obtain rfl := Option.some.inj hx
  have hown : c.ownMember? attr ⟨i, ⟨p.line, p.column⟩⟩ =
      some ((ClassName.of m name container).field attr) := by
    rw [Codebase.ownMember?, hdecl, Option.bind_some]
    refine ownMember?_of_fields hmethods ?_ hfields
    refine Option.eq_none_iff_forall_ne_some.mpr fun s hs => hproperties ?_
    obtain ⟨name', hname, heq⟩ := List.mem_map.mp (Table.mem_of_find? hs)
    exact (Prod.mk.inj heq).1 ▸ hname
  rw [Codebase.findMember?, if_neg Bool.false_ne_true, Codebase.searchMember,
    if_neg List.not_mem_nil, hown]

/-- A store to a receiver is no reference at a site, and one to the field elsewhere. -/
theorem perform_store {c : Codebase} {q : Questions} {i : Nat} {w : Walk} {r attr : String}
    {b : Denotation} {k : ClassId} {s : Symbol} (hs : s.kind = .field)
    (hm : c.modules[i]? = some (extractModule m)) (hb : findInScopes r w.scopes = some b)
    (hreceiver : b.IsReceiver k) (hmember : c.findMember? k attr false = some (s, k))
    (position : Position) (line : Nat) (updates : Bool) :
    perform c q i w (.member position line (.name r) attr .store updates) =
      pure (if ⟨position, attr⟩ ∈ (extractModule m).sites then w else w.record s line) := by
  have hon : c.memberOn? b attr = some (s, k) := by
    rcases hreceiver with rfl | rfl
    · exact hmember
    · exact hmember
  rw [perform, meetMember, resolveIn, resolve, lookupIn, hb]
  dsimp only
  rw [pure_bind]
  dsimp only
  rw [hon]
  dsimp only
  rw [recordMember, hs]
  dsimp only
  rw [isFieldSite, hm]
  simp only [List.contains_iff_mem]

/-- **A field has one declaring store, and each other store is a reference.** A class declares a
field by stores to its receivers only, and a store leads those of the first method that assigns to
the field. Then the place of that store is the site of the field, and no other store of the class to
the field stands at a site. Where the walk comes to a store to the field in a method of the class,
and the name of the receiver is bound by the parameters of the method there and by nothing since,
it records a reference to the field if and only if the store is another one. No two stores of the
module may stand at one place, and no two of its declared classes. -/
theorem declared_by_first_store {c : Codebase} {i : Nat}
    (hm : c.modules[i]? = some (extractModule m)) (hplaces : (m.stores.map storePlace).Nodup)
    (hclasses : ((extractModule m).classes.map ClassDecl.position).Nodup)
    (hC : m.Declares container (.classDef p name bases keywords body decorators)) {attr : String}
    {first : Node} (hfirst : StoredFirst (ClassName.of m name container) body attr first) :
    (first, attr) ∈ body.flatMap receiverStores ∧
      (∀ n, (n, attr) ∈ body.flatMap receiverStores →
        (⟨n.position, attr⟩ ∈ (extractModule m).sites ↔ n = first)) ∧
      ∀ M ∈ body, ∀ r, M.receiver? = some r → (ownParameters M).Nodup →
        ∀ n, (n, attr) ∈ receiverStores M →
        ∀ outside, m.ComesToMethod name ⟨p.line, p.column⟩ M outside →
        ∀ early late line updates, functionSteps M =
            early ++ .member n.position line (.name r) attr .store updates :: late →
          originOf r (outside ++ early) = some ⟨outside.length, true⟩ →
            ∀ q, Yields ((outside ++ early).foldlM (perform c q i) {}) fun w =>
              (n = first → perform c q i w
                (.member n.position line (.name r) attr .store updates) = pure w) ∧
              (n ≠ first → perform c q i w
                (.member n.position line (.name r) attr .store updates) =
                  pure (w.record ((ClassName.of m name container).field attr) line)) := by
  have hsites (n : Node) (hn : (n, attr) ∈ body.flatMap receiverStores) :
      ⟨n.position, attr⟩ ∈ (extractModule m).sites ↔ n = first := by
    obtain ⟨before, M, after, receiver, hbody, hbefore, hM, hleading⟩ := hfirst.leads
    exact mem_sites_iff_of_leading hplaces hC hfirst.only hbody hbefore hM hleading hn
  refine ⟨?_, hsites, ?_⟩
  · obtain ⟨M, hM, he⟩ := List.mem_flatMap.mp hfirst.mem
    exact List.mem_flatMap.mpr ⟨M, hM, methodStores_subset M he⟩
  · intro M hM r hr honce n hn outside hcomes early late line updates hsplit horigin q s w s' hw
    obtain ⟨b, hb, hreceiver⟩ := resolves_of_originOf hm hC hr honce hcomes hsplit
      (ne_nil_of_member hr hsplit) horigin q s w s' hw
    have hperform := perform_store (q := q) (w := w) rfl hm hb hreceiver
      (findMember?_of_storedFirst hm hclasses hC hfirst) n.position line updates
    have hsite := hsites n (List.mem_flatMap.mpr ⟨M, hM, hn⟩)
    constructor
    · intro heq
      rw [hperform, if_pos (hsite.mpr heq)]
    · intro hne
      rw [hperform, if_neg (hsite.not.mpr hne)]

/-- A class with a method that stores to its receiver twice, the second time in a branch. -/
def storesTwice : List Node → Bool
  | [.classDef _ "A" [] [] [.functionDef _ _ "f"
      (.parameters [] [.parameter _ "self" none] none [] [] none [])
      [.assign _ [.member _ (.name _ "self" .load) "x" .store] (.constant ..),
        .branch _ (.constant ..)
          [.assign _ [.member _ (.name _ "self" .load) "x" .store] (.constant ..)] []] [] none]
      []] => true
  | _ => false

/-- A store in a branch that follows the first one is a reference. -/
theorem declared_by_first_store_branch :
    let m := readModule "m"
      "class A:\n    def f(self):\n        self.x = 1\n        if 0:\n            self.x = 2\n"
    let c := Codebase.ofModules [extractModule m]
    (m.stores.map storePlace).Nodup ∧
      ((extractModule m).classes.map ClassDecl.position).Nodup ∧
      ∃ p name bases keywords body decorators,
        m.Declares none (.classDef p name bases keywords body decorators) ∧
        ∃ first, StoredFirst (ClassName.of m name none) body "x" first ∧
          ⟨first.position, "x"⟩ ∈ (extractModule m).sites ∧
          ∃ n, (n, "x") ∈ body.flatMap receiverStores ∧ n ≠ first ∧
            ∃ before line updates after, stepsAll m.body =
                before ++ .member n.position line (.name "self") "x" .store updates :: after ∧
              ∀ q, Yields (before.foldlM (perform c q 0) {}) fun w =>
                perform c q 0 w (.member n.position line (.name "self") "x" .store updates) =
                  pure (w.record ((ClassName.of m name none).field "x") line) := by
  intro m c
  have hplaces : (m.stores.map storePlace).Nodup ∧
      ((extractModule m).classes.map ClassDecl.position).Nodup := by decide +kernel
  have hshape : storesTwice m.body = true := by decide +kernel
  refine ⟨hplaces.1, hplaces.2, ?_⟩
  rw [storesTwice.eq_def] at hshape
  split at hshape
  · rename_i p pM async pSelf pA p₁ p₁' pV v pB pT t pA' p₂ p₂' pV' v' hbody
    let first : Node := .member p₁ (.name p₁' "self" .load) "x" .store
    let other : Node := .member p₂ (.name p₂' "self" .load) "x" .store
    let M : Node := .functionDef pM async "f"
      (.parameters [] [.parameter pSelf "self" none] none [] [] none [])
      [.assign pA [first] (.constant pV v),
        .branch pB (.constant pT t) [.assign pA' [other] (.constant pV' v')] []] [] none
    have hC : m.Declares none (.classDef p "A" [] [] [M] []) :=
      .level (by rw [hbody, moduleStatements]; exact List.mem_cons_self)
    have hstores : m.stores = [(first, "x"), (other, "x")] := by
      rw [stores, hbody]
      rfl
    have hown : receiverStores M = [(first, "x"), (other, "x")] := rfl
    have hreceiver : M.receiver? = some "self" := rfl
    have honly : (Members.atLevel (ClassName.of m "A" none) [M]).taken "x" = false := rfl
    obtain ⟨before, after, horder, hbefore, hafter⟩ : ∃ before after,
        M.inOrder = before ++ (1, .assign pA [first] (.constant pV v)) :: after ∧
          (before.all fun b => !storeTo (assignedStores "self" b.2) "x") = true ∧
          (after.all fun b => decide (1 ≤ b.1)) = true := ⟨[_, _, _], _, rfl, rfl, rfl⟩
    have hleading : Leading "self" "x" M first := by
      have hassignment : Members.assignmentOf? (.assign pA [first] (.constant pV v)) =
          some ([] ++ first :: [], none, some (.constant pV v)) := rfl
      have hinner : first.inOrder = [] ++ (0, first) :: [(1, .name p₁' "self" .load)] := rfl
      refine .intro hassignment horder hinner rfl
        (fun b hb => by simpa using List.all_eq_true.mp hbefore b hb) nofun nofun
        (fun b hb _ => by simpa using List.all_eq_true.mp hafter b hb) fun b hb hstored => ?_
      rw [List.mem_singleton.mp hb] at hstored
      cases hstored
    have hfirst : StoredFirst (ClassName.of m "A" none) [M] "x" first :=
      ⟨honly, [], M, [], "self", rfl, nofun, hreceiver, hleading⟩
    have hne : other ≠ first := by
      intro heq
      have hplaces := hplaces.1
      rw [hstores, heq] at hplaces
      simp at hplaces
    obtain ⟨hmem, hsites, hrecorded⟩ :=
      declared_by_first_store (c := c) (i := 0) rfl hplaces.1 hplaces.2 hC hfirst
    let outside : List Step := [.openClass "A" ⟨p.line, p.column⟩]
    obtain ⟨early, late, hsplit, hearly⟩ : ∃ early late, functionSteps M =
        early ++ .member other.position p₂.lastLine (.name "self") "x" .store false :: late ∧
          originOf "self" (outside ++ early) = some ⟨1, true⟩ := ⟨[_, _, _, _, _], _, rfl, rfl⟩
    have hwalk : stepsAll m.body = outside ++ functionSteps M ++ [.closeScope, .closeClass] := by
      rw [hbody]
      rfl
    refine ⟨p, "A", [], [], [M], [], hC, first, hfirst, (hsites first hmem).mpr rfl, other, ?_, hne,
      outside ++ early, p₂.lastLine, false, late ++ [.closeScope, .closeClass], ?_, fun q => ?_⟩
    · simp [hown]
    · rw [hwalk, hsplit]
      simp
    · have hyields := hrecorded M (List.mem_singleton_self M) "self" hreceiver
        (List.nodup_singleton "self") other (by simp [hown]) outside
        ⟨⟨_, hwalk⟩, [], [], rfl, .nil⟩ early late p₂.lastLine false hsplit hearly q
      exact fun s w s' hw => (hyields s w s' hw).2 hne
  · cases hshape

/-- A store that stands first in the first method, and in a branch, declares nothing where another
one follows the branch: that one is taken for the declaration. -/
theorem not_always_declared_by_first_store :
    ¬ ∀ (source : String) (m : SourceModule), parseModule source = .ok m.body →
      ∀ container p name bases keywords body decorators,
        m.Declares container (.classDef p name bases keywords body decorators) →
        ∀ attr, (Members.atLevel (ClassName.of m name container) body).taken attr = false →
        ∀ before M after, body = before ++ M :: after →
        (∀ N ∈ before, storeTo (receiverStores N) attr = false) →
        ∀ first, (first, attr) ∈ methodStores M →
        (∀ n, (n, attr) ∈ receiverStores M →
          (storePlace (first, attr)).le (storePlace (n, attr)) = true) →
        ⟨first.position, attr⟩ ∈ (extractModule m).sites := by
  intro h
  let source := "class A:\n    def f(self, c):\n        if c:\n            self.x = 1\n" ++
    "        self.x = 2\n"
  let m := readModule "m" source
  let site : FieldSite := ⟨⟨3, 12⟩, "x"⟩
  let later : FieldSite := ⟨⟨4, 8⟩, "x"⟩
  have hshape : m.onlyClass (fun _ name body => decide (
      (Members.atLevel (ClassName.of m name none) body).taken "x" = false ∧
      body.map (fun M => ((methodStores M).map storePlace, (receiverStores M).map storePlace)) =
        [([later, site], [later, site])])) = true := by decide +kernel
  obtain ⟨p, name, bases, keywords, body, decorators, hclass, hC⟩ :=
    exists_declares_of_onlyClass hshape
  obtain ⟨honly, hstores⟩ := of_decide_eq_true hclass
  obtain ⟨M, hbody, hM⟩ := List.map_eq_singleton_iff.mp hstores
  obtain ⟨hmethod, hreceiver⟩ := Prod.mk.inj hM
  obtain ⟨⟨first, attr⟩, hfirst, hplace⟩ : ∃ e ∈ methodStores M, storePlace e = site := by
    refine List.mem_map.mp ?_
    rw [hmethod]
    decide
  obtain rfl : attr = "x" := congrArg FieldSite.attr hplace
  have hearliest : ∀ n, (n, "x") ∈ receiverStores M →
      (storePlace (first, "x")).le (storePlace (n, "x")) = true := by
    intro n hn
    have hmem : storePlace (n, "x") ∈ [later, site] := hreceiver ▸ List.mem_map_of_mem hn
    rw [hplace]
    rcases List.mem_pair.mp hmem with heq | heq
    · rw [heq]
      decide
    · rw [heq]
      decide
  have hsite := h source m (parseModule_readModule (by decide +kernel)) none p name bases keywords
    body decorators hC "x" honly [] M [] hbody nofun first hfirst hearliest
  have hsites : (extractModule m).sites = [later] := by decide +kernel
  rw [hsites, List.mem_singleton] at hsite
  have hposition : site.position = later.position :=
    (congrArg FieldSite.position hplace).symm.trans (congrArg FieldSite.position hsite)
  exact absurd hposition (by decide)

end SourceModule

end Concordance
