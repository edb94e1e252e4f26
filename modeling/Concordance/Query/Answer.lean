import Concordance.Query.Aggregate
import Concordance.Query.Resolve

/-!
# Answering queries

A query names types, and possibly members of a kind. The symbols that it means are looked up in a
graph, and the rows of the references to them are the answer. If it means none, nothing is searched.

## Main definitions

* `Query.meant`: the symbols that a query means
* `Query.answer`: the rows of a query
-/

namespace Concordance.Query

/-- The symbols that a query means: the types of the name, or their members of a kind. -/
def meant {σ : Type} (g : Graph) (f : Filter) (kind : Option MemberKind) :
    Metered σ (List Symbol) := do
  let types ← resolveTypes g f.typeName f.home
  match kind with
  | none => pure types
  | some kind =>
    if types.isEmpty then pure []
    else
      match resolveMembers types kind f.memberName (some f.accessors.name) with
      | .ok members => pure members
      | .error e => throw e

/-- The rows of a query. -/
def answer {σ : Type} (search : Search σ) (g : Graph) (f : Filter) (kind : Option MemberKind) :
    Metered σ (List Row) := do
  let symbols ← meant g f kind
  if symbols.isEmpty then pure [] else aggregate search g symbols

end Concordance.Query
