import ApiScaffold.Proofs.Run.Alike
import ApiScaffold.Proofs.Run.Coverage

/-!
# Runs over a document in another order

The paths and the component schemas of a document are read in the order of their names, the
operations of a path in that of the methods, and all else by name; so a run does the same, whatever
the order in which they are written.

What is not read by name is a mapping whose own members are read as a schema has them, and a
reference can make one of the paths. Documents that do so are left out.

* `entries_same`: a document in another order has the same component schemas in the order of their
  names.
* `make_same`: it comes to the same draft, since both normal forms read alike.
* `generate_rearranged`: so a run leaves the same generator and the same files, with the same
  report.
* `generate_depends_on_order`: where a schema takes the paths for a schema and a path has the name
  of a keyword, a run depends on the order.
-/

namespace ApiScaffold

open Attempt

variable {P : String → Prop} {a b : Spec} {g : Generator}

namespace Component

/-- A document in another order has the same component schemas in the order of their names. -/
theorem entries_same (h : a.Rearranged b) (ht : a.IsTextual) (t : Target) :
    entries (Generator.normalized t a) = entries (Generator.normalized t b) := by
  have hschemas := Generator.componentSchemas_rearranged ht h
  have htextual : (Value.map a.componentSchemas).isTextual = true :=
    Generator.isTextual_mapAt (Generator.isTextual_mapAt ht _) _
  rw [entries, entries, Generator.schemas_of_normalized, Generator.schemas_of_normalized]
  refine agree_eq.mp
    (((Value.Reordered.map hschemas).sortedEntries htextual fun _ _ => rfl).imp fun x y hxy => ?_)
  have hsame : List.Forall₂ Eq x y := hxy.2.imp fun m n hmn => Prod.ext hmn.1 hmn.2
  rwa [List.forall₂_eq_eq_eq] at hsame

end Component

namespace Draft

/-- A document in another order comes to the same draft. -/
theorem make_same (h : a.Rearranged b) (ht : a.IsTextual) (hm : a.Matches P b)
    (he : Component.entries a = Component.entries b) (settings : Settings)
    (overrides : List Template.Override) (rules : Attempt IgnoreRules) :
    make g settings a overrides rules = make g settings b overrides rules := by
  have hinfo := h.get?_eq ht (show "info" ≠ "paths" by decide) (by decide)
  have hservers := h.get?_eq ht (show "servers" ≠ "paths" by decide) (by decide)
  have hgathers : ∀ schemas, a.schemas = .ok (.map schemas) → ∀ m ∈ schemas,
      Model.GathersSame a b m.2 :=
    fun _ hs _ hin => Model.gathersSame_of_matches hm ((hm.cites.schemas hs).of_map hin).2
  refine make_alike hm.mirrors hm.cites hgathers ⟨h.source, ?_, ?_, he, h.slots ht hm.cites⟩
    settings overrides rules
  · rw [Spec.info, Spec.info, Members.getD, Members.getD, hinfo]
  · unfold Spec.basePath Members.getD
    rw [hservers]

end Draft

/-- A document of one path is rearranged with what stands under the path and with its schemas. -/
theorem Spec.rearranged_ofItem (path : String) {item other schemas others : Members}
    (hi : item.Perm other) (hs : schemas.Perm others) :
    (Spec.ofItem path item schemas).Rearranged (.ofItem path other others) := by
  have hpath : Members.Alongside (fun _ => Value.Shuffled) [(.str path, .map item)]
      [(.str path, .map other)] := .cons ⟨rfl, .map (.of_perm (fun _ _ => rfl) hi)⟩ .nil
  have hparts : Members.Alongside ComponentsVary [(.str "schemas", .map schemas)]
      [(.str "schemas", .map others)] :=
    .cons ⟨rfl, .schemas (.map (.of_perm (fun _ _ => rfl) hs))⟩ .nil
  exact ⟨rfl, _, .refl _, .cons ⟨rfl, .same _ _⟩ (.cons ⟨rfl, .same _ _⟩
    (.cons ⟨rfl, .paths (.map ⟨_, .refl _, hpath⟩)⟩
      (.cons ⟨rfl, .components (.map ⟨_, .refl _, hparts⟩)⟩ .nil)))⟩

namespace Generator

/-- A run over a document in another order does the same: it leaves the same generator, output and
log, and it has the same report or failure. The keys of the document are texts, and no reference
makes something of its paths. -/
theorem generate_rearranged {a b : Spec} (g : Generator) (overrides : List Template.Override)
    (sink : Sink) (ht : a.IsTextual) (h : a.Rearranged b)
    (hp : a.CitesOnly (Spec.LeavesPaths a.pathItems)) :
    g.generate a overrides sink = g.generate b overrides sink := by
  have hmatches : (normalized g.target a).Matches (Spec.LeavesPaths a.pathItems)
      (normalized g.target b) := by
    have hcites := citesOnly_normalized hp g.target
    rw [← pathItems_normalized g.target] at hcites ⊢
    exact (rearranged_normalized ht h g.target).matches_of_leavesPaths
      (isTextual_normalized ht g.target) hcites
  refine generate_of_make_eq fun moved settings => ?_
  rw [Draft.make_same (rearranged_normalized ht h g.target) (isTextual_normalized ht g.target)
    hmatches (Component.entries_same h ht g.target)]

/-- A run over a shop, and one over a shop whose operations and schemas are written the other way
round. -/
theorem generate_rearranged_shop :
    Spec.shop.Rearranged (.ofItem "/pets" Spec.shopItem.reverse Spec.shopSchemas.reverse)
    ∧ (ofTarget .python []).generate .shop [] (.memory [] ⟨[]⟩)
      = (ofTarget .python []).generate
          (.ofItem "/pets" Spec.shopItem.reverse Spec.shopSchemas.reverse) [] (.memory [] ⟨[]⟩) := by
  have hshop : Spec.shop.IsTextual := by
    show Spec.shop.document.isTextual = true
    decide
  have horder := Spec.rearranged_ofItem "/pets" (List.reverse_perm Spec.shopItem).symm
    (List.reverse_perm Spec.shopSchemas).symm
  exact ⟨horder, generate_rearranged _ _ _ hshop horder fun _ _ _ => by decide⟩

end Generator

/-! ## Paths that are read as a schema -/

/-- Two schemas that are no more than references to themselves, and one that takes the paths of the
document for a schema. -/
def Spec.loopSchemas : Members := [
  (.str "A", .map (Schema.link "A")), (.str "B", .map (Schema.link "B")),
  (.str "M", .map [(.str "allOf", .list [.map [(.str "$ref", .str "#/paths")]])])]

/-- The members of a path that is read as the properties of a schema. -/
def Spec.loopItem : Members :=
  [(.str "a", .map (Schema.link "A")), (.str "b", .map (Schema.link "B"))]

namespace Generator

/-- A run stops with the message with which its draft stops. -/
theorem generate_loop {item : Members} {text : String}
    (h : (Draft.make ((ofTarget .python []).building pythonSettings) pythonSettings
      (.ofItem "properties" item Spec.loopSchemas) [] (.ok ⟨[]⟩)).result.message? = some text) :
    ((ofTarget .python []).generate (.ofItem "properties" item Spec.loopSchemas) []
      (.memory [] ⟨[]⟩)).result.message? = some text := by
  obtain ⟨failure, hmake, rfl⟩ := Attempt.exists_of_message? h
  obtain ⟨hprepared, hbuilding⟩ := @prepare_of_settings (ofTarget .python [])
    (.ofItem "properties" item Spec.loopSchemas) _ rfl ofOptions_python
  have hdraft : (ofTarget .python []).draft (.ofItem "properties" item Spec.loopSchemas) []
      (.ok ⟨[]⟩) = .error failure := by
    rw [draft, hprepared, hbuilding]
    exact hmake
  rw [(@generate_of_draft_error _ _ [] (.memory [] ⟨[]⟩) _ hdraft).2]
  rfl

theorem entries_loop (item : Members) :
    Component.entries (.ofItem "properties" item Spec.loopSchemas) = .ok Spec.loopSchemas :=
  Component.entries_of_pairwise rfl (by rfl) (by decide)

/-- Where a schema takes the paths for a schema and a path has the name of a keyword, what stands
under the path is read as properties, and the order of these decides what stops a run. -/
theorem generate_depends_on_order : ∃ a b,
    Spec.ofValue a.document a.source = .ok a ∧ Spec.ofValue b.document b.source = .ok b
      ∧ a.IsTextual ∧ b.IsTextual ∧ a.Rearranged b
      ∧ ((ofTarget .python []).generate a [] (.memory [] ⟨[]⟩)).result.message?
          = some "circular reference '#/components/schemas/A'"
      ∧ ((ofTarget .python []).generate b [] (.memory [] ⟨[]⟩)).result.message?
          = some "circular reference '#/components/schemas/B'" := by
  refine ⟨.ofItem "properties" Spec.loopItem Spec.loopSchemas,
    .ofItem "properties" Spec.loopItem.reverse Spec.loopSchemas,
    Spec.ofValue_document (by decide +kernel), Spec.ofValue_document (by decide +kernel), ?_, ?_,
    Spec.rearranged_ofItem "properties" (List.reverse_perm _).symm (.refl _), generate_loop ?_,
    generate_loop ?_⟩
  · show Value.isTextual _ = true
    decide
  · show Value.isTextual _ = true
    decide
  all_goals
    simp only [Draft.make, Draft.makeBy, Draft.gather, Component.checked, Component.all, entries_loop]
    decide +kernel

end Generator

end ApiScaffold
