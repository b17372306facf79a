import Conform.Family.Catalog
import Conform.Proofs.Func
import Mathlib.Data.List.Nodup
import Mathlib.Tactic.Tauto

/-!
The families that convert fetch their conversions by handles. Where no other function has one of the
handles, these are the conversions themselves.
-/

namespace Conform

theorem standardFunctions_inj {f g : Func} (hf : f ∈ standardFunctions)
    (hg : g ∈ standardFunctions) (h : f.handle = g.handle) : f = g := by
  have hhandles : (standardFunctions.map Func.handle).Nodup := by decide
  exact List.inj_on_of_nodup_map hhandles hf hg h

namespace FuncTable

/-- The handles of the conversions are left to them. -/
def Reserved (functions : FuncTable) : Prop :=
  ∀ f ∈ standardFunctions, functions.Spares f

theorem Reserved.fetch {functions : FuncTable} (h : functions.Reserved) {f : Func}
    (hf : f ∈ standardFunctions) :
    ∃ later, (FuncTable.fetch f).run functions = (f, later) ∧ later.Reserved := by
  refine ⟨(functions.fetchOrRegister f).2, Prod.ext (h f hf).fetch.1 rfl, fun g hg => ?_⟩
  exact (h f hf).after_fetch (h g hg) (standardFunctions_inj hf hg)

end FuncTable

namespace Family

/-- The types that convert by the conversions themselves. -/
def ofConversions (label : String) (table : Conversions) : Family :=
  ⟨label, table.map fun (p, call) => (p, .converted (.nominal p {}) [conversionFunc label p call])⟩

def json : Family :=
  let converted := ofConversions "json" Json.conversions
  { converted with types := converted.types ++ Json.native.map fun p => (p, Ty.strict p) }

/-- Types that convert by the conversions themselves, and types that check. -/
def direct (label : String) (table : Conversions) (checked : List Primitive) : Family :=
  ⟨label, (ofConversions label table).types ++ checked.map fun p => (p, Ty.strict p)⟩

end Family

namespace FamilyOptions

variable {options : FamilyOptions}

end FamilyOptions

end Conform
