import ApiScaffold.Proofs.Template.Builtin
import ApiScaffold.Proofs.Template.Evaluate
import ApiScaffold.Template.Library

/-!
# The texts that a library renders

If the templates that a run is given have no lone halves, nor what a template sees, then its text
has none (`IsWhole.render`). The built-in templates never have any, so a library is whole if its own
templates are (`Library.IsWhole`), under whatever name they are found, and so is what they embed to
any depth (`IsWhole.embedded`).
-/

namespace ApiScaffold

open Text

namespace Template

namespace Library

/-- Whether the templates that a library is given have no lone halves, under any name. -/
def IsWhole (library : Library) : Prop :=
  ∀ given ∈ library.overrides, ∀ text, given.text? = some text →
    ∀ (id : String) (template : Template), ofText id text = .ok template → areWhole template = true

theorem isWhole_builtin (t : Target) : (ofTarget t []).IsWhole :=
  fun _ hg => absurd hg List.not_mem_nil

theorem IsWhole.template {library : Library} (h : library.IsWhole) {id name : String}
    {origin : Origin} {template : Template} (ho : library.find? id = some origin)
    (ht : origin.template name = .ok template) : areWhole template = true := by
  obtain ⟨parts, -, ho⟩ := Option.bind_eq_some_iff.mp ho
  dsimp only at ho
  split at ho
  next given hgiven =>
    cases ho
    have hm : given ∈ library.overrides := List.mem_of_find?_eq_some hgiven
    cases htext : given.text? with
    | none => simp [Origin.template, htext] at ht
    | some text =>
        rw [htext, Origin.template] at ht
        cases hparsed : ofText name text with
        | error fault => simp [hparsed] at ht
        | ok parsed =>
            simp only [hparsed, Except.ok.injEq] at ht
            subst ht
            exact h given hm text htext name parsed hparsed
  next =>
    obtain ⟨entry, he, rfl⟩ := Option.map_eq_some_iff.mp ho
    obtain ⟨folder, -, hf⟩ := List.exists_of_findSome?_eq_some he
    cases ht
    exact Builtin.areWhole_all entry (List.mem_of_find?_eq_some hf)

theorem IsWhole.embedded {library : Library} (h : library.IsWhole) (depth : Nat) :
    EmbedsWhole (library.embedded depth) := by
  induction depth with
  | zero =>
      intro id scope text _ ht
      cases ht
  | succ depth ih =>
      intro id scope text hs ht
      rw [Library.embedded] at ht
      split at ht
      next => cases ht
      next origin ho =>
        split at ht
        next => cases ht
        next => cases ht
        next template htemplate =>
          obtain ⟨⟨s, after⟩, hr, ht⟩ := Attempt.bind_eq_ok.mp ht
          cases ht
          exact (isWhole_runAll ih template (h.template ho htemplate) scope after _ hs hr).1

/-- A text that is rendered has no lone halves if neither the templates nor the scope have any. -/
theorem IsWhole.render {library : Library} (h : library.IsWhole) {id destination text : String}
    {scope : Scope} (hs : Scope.IsWhole scope)
    (ht : library.render id scope destination = .ok text) : Text.isWhole text = true := by
  obtain ⟨template, hload, ht⟩ := Attempt.bind_eq_ok.mp ht
  have hwhole : areWhole template = true := by
    unfold load at hload
    split at hload
    next => cases hload
    next origin ho =>
      split at hload
      next => cases hload
      next => cases hload
      next found hfound =>
        cases hload
        exact h.template ho hfound
  split at ht
  · cases ht
  · split at ht
    next s after hr =>
      cases ht
      exact (isWhole_runAll (h.embedded depthLimit) template hwhole scope after _ hs hr).1
    next =>
      split at ht <;> cases ht

end Library

end Template

end ApiScaffold
