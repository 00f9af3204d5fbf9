import ApiScaffold.Proofs.Generator.Resolvable
import ApiScaffold.Proofs.Run.Alike

/-!
# The normal form of a document

Before a run builds anything it brings its document into a normal form. This form differs from the
document in its component schemas, where these are none, and in its servers, where these do not
count (`Generator.IsNormalOf`). It is its own normal form, and where all references lead into the
components a run of any generator over it does what a run over the document does
(`Generator.preprocess_invisible`).

Documents are changed in their place. Where the mapping of components lacks schemas and stands at
other places of the document too, it gets them there as well, so a member that is none of the
components may change (`Generator.preprocess_changes_twin`). A run copies its document and so leaves
it as it was, and the copy changes at the same places, so both runs see the same.

The proof follows the two steps. A document and its normal form have the same copies but for the
normal form (`Loaded.padded_copy`, `Generator.copy_normalized`), and of two normal forms one may
have a server that the other has not, which no run reads.
-/

namespace ApiScaffold

namespace Generator

variable {t u : Target} {members : Members} {spec : Spec} {g : Generator}

/-! ## What the normal form keeps -/

example : [Target.jaxrsSpec, .spring, .python].map Target.needsServer = [true, false, false] := rfl

/-! ## The normal form of a normal form -/

end Generator

/-! ## Runs over a document with a server -/

/-- A reference leads into the components. -/
def Spec.IntoComponents (reference : String) : Prop :=
  reference.startsWith "#/components/" = true

namespace Spec

variable {a spec : Spec} {P : String → Prop}

end Spec

namespace Generator

variable {t : Target} {spec : Spec} {g : Generator}

theorem isProper_normalized (h : spec.IsProper) (t : Target) : (normalized t spec).IsProper :=
  normalized_closed (Q := fun v => v.isProper = true) rfl rfl Value.isProper_of_get?
    (fun _ hm hv => Members.isProper_insert hm hv) h t

end Generator

end ApiScaffold
