import ApiScaffold.Proofs.Attempt
import ApiScaffold.Template.Evaluate

/-!
# Templates in sequence

The text of one template after another is their texts one after the other (`runAll_append_ok`), the
text of a loop is that of its turns (`run_each_ok`), and only an assignment outside of loops adds to
the names in sight (`Node.run_scope`). These are about runs that come to a text, and what such a
text consists of.
-/

namespace ApiScaffold.Template

variable {embed : String → Scope → Except Datum.Stop String} {scope after : Scope} {s : String}

mutual

/-- Whether a node may assign a name outside of loops. -/
def Node.assigns : Node → Bool
  | .assign _ _ => true
  | .branch _ yes no => assignsAny yes || assignsAny no
  | _ => false

def assignsAny : List Node → Bool
  | [] => false
  | n :: rest => n.assigns || assignsAny rest

end

theorem runAll_cons_ok {n : Node} {rest : List Node} :
    runAll embed scope (n :: rest) = .ok (s, after) ↔ ∃ first between second,
      n.run embed scope = .ok (first, between) ∧ runAll embed between rest = .ok (second, after)
        ∧ s = first ++ second := by
  rw [runAll, Attempt.bind_eq_ok]
  constructor
  · rintro ⟨⟨first, between⟩, hn, h⟩
    obtain ⟨⟨second, last⟩, hrest, h⟩ := Attempt.bind_eq_ok.mp h
    cases h
    exact ⟨first, between, second, hn, hrest, rfl⟩
  · rintro ⟨first, between, second, hn, hrest, rfl⟩
    exact ⟨_, hn, Attempt.bind_eq_ok.mpr ⟨_, hrest, rfl⟩⟩

theorem runAll_single (n : Node) : runAll embed scope [n] = n.run embed scope := by
  simp only [runAll]
  cases n.run embed scope with
  | error stop => rfl
  | ok result =>
      show Except.ok (result.1 ++ "", result.2) = _
      rw [String.append_empty]

/-- A text in front. -/
theorem runAll_text (t : String) (rest : List Node) :
    runAll embed scope (.text t :: rest)
      = (runAll embed scope rest).map fun r => (t ++ r.1, r.2) := by
  rw [runAll, Node.run]
  cases h : runAll embed scope rest <;> simp only [Bind.bind, Except.bind, h] <;> rfl

theorem display_str (t : String) : (Datum.str t).display = .ok t := by
  have hwritable : (Value.str t).isWritable = true := by simp [Value.isWritable]
  simp only [Datum.display, Datum.str, Value.display?, hwritable]
  rfl

/-- An expression in front that stands for a text. -/
theorem runAll_print {e : Expr} {t : String} (he : e.eval scope = .ok (.str t))
    (rest : List Node) : runAll embed scope (.print e :: rest)
      = (runAll embed scope rest).map fun r => (t ++ r.1, r.2) := by
  rw [runAll, Node.run, he]
  cases h : runAll embed scope rest <;>
    simp only [Bind.bind, Except.bind, display_str, pure, Except.pure, h] <;> rfl

/-- The text of one template after another. -/
theorem runAll_append_ok {a b : List Node} :
    runAll embed scope (a ++ b) = .ok (s, after) ↔ ∃ first between second,
      runAll embed scope a = .ok (first, between) ∧ runAll embed between b = .ok (second, after)
        ∧ s = first ++ second := by
  induction a generalizing scope s with
  | nil =>
      rw [List.nil_append, runAll]
      constructor
      · intro h
        exact ⟨"", scope, s, rfl, h, by simp⟩
      · rintro ⟨first, between, second, ha, hb, rfl⟩
        cases ha
        simpa using hb
  | cons n rest ih =>
      rw [List.cons_append, runAll_cons_ok]
      simp only [ih, runAll_cons_ok]
      constructor
      · rintro ⟨first, m, _, hn, ⟨second, between, third, hrest, hb, rfl⟩, rfl⟩
        exact ⟨first ++ second, between, third, ⟨first, m, second, hn, hrest, rfl⟩, hb,
          (String.append_assoc ..).symm⟩
      · rintro ⟨_, between, third, ⟨first, m, second, hn, hrest, rfl⟩, hb, rfl⟩
        exact ⟨first, m, second ++ third, hn, ⟨second, between, third, hrest, hb, rfl⟩,
          String.append_assoc ..⟩

mutual

/-- A node that assigns nothing leaves the names in sight as they are. -/
theorem Node.run_scope : ∀ n : Node, n.assigns = false → ∀ (scope after : Scope) (s : String),
    n.run embed scope = .ok (s, after) → after = scope
  | .text _, _ => by
      intro scope after s h
      rw [Node.run] at h
      cases h
      rfl
  | .print e, _ => by
      intro scope after s h
      rw [Node.run] at h
      obtain ⟨d, -, h⟩ := Attempt.bind_eq_ok.mp h
      obtain ⟨shown, -, h⟩ := Attempt.bind_eq_ok.mp h
      cases h
      rfl
  | .branch condition yes no, hn => by
      rw [Node.assigns, Bool.or_eq_false_iff] at hn
      intro scope after s h
      rw [Node.run] at h
      obtain ⟨d, -, h⟩ := Attempt.bind_eq_ok.mp h
      obtain ⟨truth, -, h⟩ := Attempt.bind_eq_ok.mp h
      split at h
      · exact runAll_scope yes hn.1 scope after s h
      · exact runAll_scope no hn.2 scope after s h
  | .each x source body otherwise line, _ => by
      intro scope after s h
      rw [Node.run] at h
      obtain ⟨d, -, h⟩ := Attempt.bind_eq_ok.mp h
      obtain ⟨items, -, h⟩ := Attempt.bind_eq_ok.mp h
      split at h
      · obtain ⟨_, -, h⟩ := Attempt.bind_eq_ok.mp h
        cases h
        rfl
      · obtain ⟨texts, -, h⟩ := Attempt.bind_eq_ok.mp h
        cases h
        rfl
  | .assign _ _, hn => by
      rw [Node.assigns] at hn
      cases hn
  | .embed e, _ => by
      intro scope after s h
      rw [Node.run] at h
      obtain ⟨d, -, h⟩ := Attempt.bind_eq_ok.mp h
      obtain ⟨found, -, h⟩ := Attempt.bind_eq_ok.mp h
      obtain ⟨id, -, h⟩ := Attempt.bind_eq_ok.mp h
      obtain ⟨t, -, h⟩ := Attempt.bind_eq_ok.mp h
      cases h
      rfl

theorem runAll_scope : ∀ nodes : List Node, assignsAny nodes = false →
    ∀ (scope after : Scope) (s : String), runAll embed scope nodes = .ok (s, after) →
      after = scope
  | [], _ => by
      intro scope after s h
      rw [runAll] at h
      cases h
      rfl
  | n :: rest, hn => by
      rw [assignsAny, Bool.or_eq_false_iff] at hn
      intro scope after s h
      obtain ⟨first, between, second, hfirst, hrest, -⟩ := runAll_cons_ok.mp h
      rw [runAll_scope rest hn.2 between after second hrest,
        Node.run_scope n hn.1 scope between first hfirst]

end

/-- What stands last in a template whose other nodes assign nothing is run in the same scope. -/
theorem runAll_last_ok {front : List Node} {last : Node} (hf : assignsAny front = false)
    (h : runAll embed scope (front ++ [last]) = .ok (s, after)) :
    ∃ first second, last.run embed scope = .ok (second, after) ∧ s = first ++ second := by
  obtain ⟨first, between, rest, hfront, hlast, rfl⟩ := runAll_append_ok.mp h
  rw [runAll_scope front hf scope between first hfront] at hlast
  rw [runAll_single] at hlast
  exact ⟨first, rest, hlast, rfl⟩

/-- A branch whose condition is known. -/
theorem run_branch_ok {condition : Expr} {yes no : List Node} {b : Bool}
    (hc : condition.eval scope = .ok (.bool b)) :
    (Node.branch condition yes no).run embed scope = runAll embed scope (if b then yes else no) := by
  rw [Node.run, hc]
  cases b <;> rfl

/-- The text of a loop over known items is that of its turns. -/
theorem run_each_ok {x : String} {source : Expr} {body : List Node} {line : Nat}
    {items : List Datum} (hs : source.eval scope = .ok (.tuple items))
    (h : (Node.each x source body [] line).run embed scope = .ok (s, after)) :
    ∃ turns, s = String.join turns ∧ List.Forall₂ (fun item turn => ∃ index bodyScope,
      runAll embed ((x, item) :: ("loop", .turn index items.length) :: scope) body
        = .ok (turn, bodyScope)) items turns := by
  rw [Node.run] at h
  obtain ⟨d, hd, h⟩ := Attempt.bind_eq_ok.mp h
  rw [hs] at hd
  cases hd
  obtain ⟨found, hfound, h⟩ := Attempt.bind_eq_ok.mp h
  cases hfound
  split at h
  next hempty =>
    cases h
    rw [List.isEmpty_iff.mp hempty]
    exact ⟨[], rfl, .nil⟩
  next =>
    obtain ⟨turns, hturns, h⟩ := Attempt.bind_eq_ok.mp h
    cases h
    refine ⟨turns, rfl, ?_⟩
    -- the turns are numbered, and the numbers do not matter here
    rw [← List.zipIdx_map_fst 0 items, List.forall₂_map_left_iff]
    refine (Attempt.mapM_eq_ok.mp hturns).imp fun numbered turn hturn => ?_
    obtain ⟨⟨text, bodyScope⟩, hbody, hturn⟩ := Attempt.bind_eq_ok.mp hturn
    cases hturn
    rw [List.zipIdx_map_fst]
    exact ⟨numbered.2, bodyScope, hbody⟩

end ApiScaffold.Template
