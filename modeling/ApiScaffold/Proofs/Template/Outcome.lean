import ApiScaffold.Proofs.Template.Sequence
import ApiScaffold.Template.Library

/-!
# What templates come to

A part of a template that uses nothing but what is there either writes a text, or ends at a value
that has none, which is no fault of the template. So it can be said what it writes without asking
which values have a text.

* `Gives`: what an evaluation comes to, if it is not such a value that ends it.
* `Writes`, `Tells` and `WritesAny`: the same of a run, with names left in sight as they are, with
  any names, and without a word on the text.
* There is one lemma for each kind of node and for nodes in sequence, so that a template is gone
  through by its own shape; `Library.render_of_tells` then gives a text for the whole.
-/

namespace ApiScaffold.Template

open Datum (Stop)

section Gives

variable {α β : Type} {P Q : α → Prop} {R : β → Prop} {r : Except Stop α}

/-- An evaluation that nothing ends but data that are no use, and what it comes to. -/
def Gives (P : α → Prop) : Except Stop α → Prop
  | .ok x => P x
  | .error stop => stop = .unsuitable

theorem gives_ok {x : α} (h : P x) : Gives P (.ok x) := h

theorem gives_of_eq {x : α} (hr : r = .ok x) (h : P x) : Gives P r := hr ▸ h

theorem gives_unsuitable : Gives P (.error .unsuitable) := rfl

theorem Gives.imp (h : Gives P r) (himp : ∀ x, P x → Q x) : Gives Q r := by
  cases r with
  | ok x => exact himp x h
  | error stop => exact h

theorem Gives.bind {f : α → Except Stop β} (h : Gives P r) (hf : ∀ x, P x → Gives R (f x)) :
    Gives R (r >>= f) := by
  cases r with
  | ok x => exact hf x h
  | error stop => exact h

/-- What each evaluation comes to all of them come to in order. -/
theorem gives_mapM {f : β → Except Stop α} {R : β → α → Prop} {xs : List β}
    (h : ∀ x ∈ xs, Gives (R x) (f x)) : Gives (List.Forall₂ R xs) (xs.mapM f) := by
  induction xs with
  | nil => exact gives_ok .nil
  | cons x xs ih =>
      obtain ⟨hx, hxs⟩ := List.forall_mem_cons.mp h
      rw [List.mapM_cons]
      exact hx.bind fun first hfirst => (ih hxs).bind fun rest hrest => gives_ok (.cons hfirst hrest)

end Gives

/-! ## Data that are there -/

/-- A datum that is there has a text, unless a value in it has none. -/
def IsThere : Datum → Prop
  | .missing _ => False
  | _ => True

theorem gives_display {d : Datum} (h : IsThere d) : Gives (fun _ => True) d.display := by
  cases d with
  | missing binding => exact h.elim
  | value v =>
      rw [Datum.display]
      split
      · exact gives_ok trivial
      · exact gives_unsuitable
  | _ => exact gives_ok trivial

theorem gives_display_value (v : Value) :
    Gives (fun text => text = v.display) (Datum.value v).display := by
  rw [Datum.display, Value.display?]
  by_cases hw : v.isWritable = true
  · rw [if_pos hw]
    exact gives_ok rfl
  · rw [if_neg hw]
    exact gives_unsuitable

theorem gives_jsonOf_value (v : Value) : Gives (fun _ => True) (jsonOf (.value v)) := by
  rw [jsonOf]
  split
  · exact gives_ok trivial
  · exact gives_unsuitable

/-! ## What nodes write -/

variable {embed : String → Scope → Except Stop String} {scope : Scope} {P Q R : String → Prop}
  {s t x : String} {n : Node} {nodes rest front back : List Node} {e : Expr}

/-- A run that writes a text with a property and leaves the names in sight as they are. -/
def Writes (P : String → Prop) (scope : Scope) (r : Except Stop (String × Scope)) : Prop :=
  Gives (fun written => P written.1 ∧ written.2 = scope) r

/-- A run that writes a text with a property. -/
def Tells (P : String → Prop) (r : Except Stop (String × Scope)) : Prop :=
  Gives (fun written => P written.1) r

/-- A run that writes some text. -/
abbrev WritesAny (scope : Scope) (r : Except Stop (String × Scope)) : Prop :=
  Writes (fun _ => True) scope r

theorem Writes.imp {r : Except Stop (String × Scope)} (h : Writes P scope r)
    (himp : ∀ s, P s → Q s) : Writes Q scope r :=
  Gives.imp h fun _ hw => ⟨himp _ hw.1, hw.2⟩

theorem Writes.tells {r : Except Stop (String × Scope)} (h : Writes P scope r) : Tells P r :=
  Gives.imp h fun _ hw => hw.1

theorem Writes.any {r : Except Stop (String × Scope)} (h : Writes P scope r) : WritesAny scope r :=
  h.imp fun _ _ => trivial

theorem writes_text : Writes (· = s) scope ((Node.text s).run embed scope) := by
  rw [Node.run]
  exact gives_ok ⟨rfl, rfl⟩

theorem writes_print (h : Gives (· = Datum.str t) (e.eval scope)) :
    Writes (· = t) scope ((Node.print e).run embed scope) := by
  rw [Node.run]
  refine h.bind fun d hd => ?_
  subst hd
  rw [display_str]
  exact gives_ok ⟨rfl, rfl⟩

theorem writesAny_print (h : Gives IsThere (e.eval scope)) :
    WritesAny scope ((Node.print e).run embed scope) := by
  rw [Node.run]
  exact h.bind fun d hd => (gives_display hd).bind fun text _ => gives_ok ⟨trivial, rfl⟩

theorem runAll_append : runAll embed scope (front ++ back) = do
    let (first, between) ← runAll embed scope front
    let (second, after) ← runAll embed between back
    return (first ++ second, after) := by
  induction front generalizing scope with
  | nil =>
      rw [List.nil_append, runAll]
      show _ = (runAll embed scope back >>= fun w => pure ("" ++ w.1, w.2))
      simp only [String.empty_append]
      exact (bind_pure _).symm
  | cons n rest ih =>
      rw [List.cons_append, runAll, runAll]
      simp only [ih, bind_assoc, pure_bind, String.append_assoc]

/-- The text of a template in two parts, where all that the first one leaves behind is its text. -/
theorem Writes.append_tells (hf : Writes P scope (runAll embed scope front))
    (hb : Tells Q (runAll embed scope back)) (h : ∀ s t, P s → Q t → R (s ++ t)) :
    Tells R (runAll embed scope (front ++ back)) := by
  rw [runAll_append]
  refine Gives.bind hf ?_
  rintro ⟨first, between⟩ ⟨hfirst, hbetween⟩
  dsimp only at hfirst hbetween
  subst hbetween
  exact Gives.bind hb fun w hw => gives_ok (h _ _ hfirst hw)

theorem Writes.append (hf : Writes P scope (runAll embed scope front))
    (hb : Writes Q scope (runAll embed scope back)) (h : ∀ s t, P s → Q t → R (s ++ t)) :
    Writes R scope (runAll embed scope (front ++ back)) := by
  rw [runAll_append]
  refine Gives.bind hf ?_
  rintro ⟨first, between⟩ ⟨hfirst, hbetween⟩
  dsimp only at hfirst hbetween
  subst hbetween
  exact Gives.bind hb fun w hw => gives_ok ⟨h _ _ hfirst hw.1, hw.2⟩

theorem writes_nil : Writes (· = "") scope (runAll embed scope []) := by
  rw [runAll]
  exact gives_ok ⟨rfl, rfl⟩

theorem writes_single :
    Writes P scope (runAll embed scope [n]) ↔ Writes P scope (n.run embed scope) := by
  rw [runAll_single]

/-- The texts of a node and of those behind it. -/
theorem Writes.cons (hn : Writes (· = s) scope (n.run embed scope))
    (hrest : Writes (· = t) scope (runAll embed scope rest)) :
    Writes (· = s ++ t) scope (runAll embed scope (n :: rest)) := by
  refine @Writes.append _ _ _ _ _ [n] rest (writes_single.mpr hn) hrest ?_
  rintro _ _ rfl rfl
  rfl

theorem writesAny_cons (hn : WritesAny scope (n.run embed scope))
    (hrest : WritesAny scope (runAll embed scope rest)) :
    WritesAny scope (runAll embed scope (n :: rest)) :=
  @Writes.append _ _ _ _ _ [n] rest (writes_single.mpr hn) hrest fun _ _ _ _ => trivial

theorem writesAny_text (h : WritesAny scope (runAll embed scope rest)) :
    WritesAny scope (runAll embed scope (.text s :: rest)) :=
  writesAny_cons writes_text.any h

theorem writesAny_nil : WritesAny scope (runAll embed scope []) := writes_nil.any

/-- Whether a node is a text, or the text of a field of a name. -/
def Node.isPlain (fields : List (String × String)) : Node → Bool
  | .text _ => true
  | .print (.field (.name x) key) => fields.contains (x, key)
  | _ => false

/-- Texts and fields that are there are written. -/
theorem writesAny_of_isPlain {fields : List (String × String)}
    (hf : ∀ p ∈ fields, Gives IsThere ((find scope p.1).field p.2))
    (h : nodes.all (·.isPlain fields) = true) : WritesAny scope (runAll embed scope nodes) := by
  induction nodes with
  | nil => exact writesAny_nil
  | cons n rest ih =>
      rw [List.all_cons, Bool.and_eq_true] at h
      refine writesAny_cons ?_ (ih h.2)
      unfold Node.isPlain at h
      split at h
      · exact writes_text.any
      · exact writesAny_print (hf _ (List.contains_iff_mem.mp h.1))
      · cases h.1

/-- A branch whose condition is known. -/
theorem writes_branch {condition : Expr} {yes no : List Node} {b : Bool}
    (hc : condition.eval scope = .ok (.bool b))
    (h : Writes P scope (runAll embed scope (if b then yes else no))) :
    Writes P scope ((Node.branch condition yes no).run embed scope) := by
  rwa [run_branch_ok hc]

/-- What is assigned is in sight of what comes after it, and has no text. -/
theorem tells_assign (he : Gives (fun _ => True) (e.eval scope))
    (h : ∀ d, Tells P (runAll embed ((x, d) :: scope) rest)) :
    Tells P (runAll embed scope (.assign x e :: rest)) := by
  rw [runAll, Node.run]
  refine (he.bind (R := fun w => w.1 = "" ∧ ∃ d, w.2 = (x, d) :: scope)
    fun d _ => gives_ok ⟨rfl, d, rfl⟩).bind ?_
  rintro ⟨first, between⟩ ⟨hfirst, d, hbetween⟩
  dsimp only at hfirst hbetween
  subst hfirst hbetween
  refine Gives.bind (h d) fun w hw => gives_ok ?_
  rwa [String.empty_append]

section Loops

variable {γ : Type} {f : γ → Datum} {entries : List γ} {source : Expr} {body otherwise : List Node}
  {line : Nat}

/-- What each turn of a loop writes, the loop writes in order. -/
theorem writes_each {S : γ × Nat → String → Prop}
    (hs : (source.eval scope >>= Datum.items) = .ok (entries.map f)) (hne : entries ≠ [])
    (h : ∀ p ∈ entries.zipIdx, Tells (S p)
      (runAll embed ((x, f p.1) :: ("loop", .turn p.2 entries.length) :: scope) body)) :
    Writes (fun s => ∃ turns, s = String.join turns ∧ List.Forall₂ S entries.zipIdx turns) scope
      ((Node.each x source body otherwise line).run embed scope) := by
  have hturns : Gives (List.Forall₂ S entries.zipIdx) ((entries.map f).zipIdx.mapM fun item => do
      return (← runAll embed ((x, item.1) :: ("loop", .turn item.2 (entries.map f).length) :: scope)
        body).1) := by
    rw [List.zipIdx_map, List.mapM_map, List.length_map]
    exact gives_mapM fun p hp => Gives.bind (h p hp) fun w hw => gives_ok hw
  have hempty : (entries.map f).isEmpty = false := by
    rw [List.isEmpty_map, List.isEmpty_eq_false_iff]
    exact hne
  rw [Node.run, ← bind_assoc, hs]
  show Gives _ (if (entries.map f).isEmpty then _ else _)
  rw [hempty, if_neg Bool.false_ne_true]
  exact hturns.bind fun turns hall => gives_ok ⟨⟨turns, rfl, hall⟩, rfl⟩

/-- A loop over nothing writes what stands in its place. -/
theorem writes_each_nil (hs : (source.eval scope >>= Datum.items) = .ok [])
    (h : Tells P (runAll embed scope otherwise)) :
    Writes P scope ((Node.each x source body otherwise line).run embed scope) := by
  rw [Node.run, ← bind_assoc, hs]
  show Gives _ (runAll embed scope otherwise >>= fun w => .ok (w.1, scope))
  exact Gives.bind h fun w hw => gives_ok ⟨hw, rfl⟩

/-- A loop each turn of which writes some text writes one. -/
theorem writesAny_each (hs : (source.eval scope >>= Datum.items) = .ok (entries.map f))
    (h : ∀ p ∈ entries.zipIdx, Tells (fun _ => True)
      (runAll embed ((x, f p.1) :: ("loop", .turn p.2 entries.length) :: scope) body)) :
    WritesAny scope ((Node.each x source body [] line).run embed scope) := by
  cases entries with
  | nil => exact writes_each_nil hs (gives_ok trivial)
  | cons entry entries => exact (@writes_each _ _ _ _ f _ _ _ _ _ (fun _ _ => True) hs
      (List.cons_ne_nil _ _) h).any

/-- A loop whose turns write known texts. -/
theorem writes_each_eq {g : γ × Nat → String}
    (hs : (source.eval scope >>= Datum.items) = .ok (entries.map f)) (hne : entries ≠ [])
    (h : ∀ p ∈ entries.zipIdx, Tells (· = g p)
      (runAll embed ((x, f p.1) :: ("loop", .turn p.2 entries.length) :: scope) body)) :
    Writes (· = String.join (entries.zipIdx.map g)) scope
      ((Node.each x source body otherwise line).run embed scope) := by
  refine (writes_each (S := fun p turn => turn = g p) hs hne h).imp ?_
  rintro _ ⟨turns, rfl, hturns⟩
  have hall : List.Forall₂ Eq turns (entries.zipIdx.map g) :=
    List.forall₂_map_right_iff.mpr hturns.flip
  rw [List.forall₂_eq_eq_eq] at hall
  rw [hall]

end Loops

/-! ## What is rendered -/

/-- A template that can be used has a text, unless a value in it has none. -/
theorem Library.render_of_tells {library : Library} {id destination : String} {template : Template}
    (hl : library.load id destination = .ok template)
    (h : ∀ embed, Tells P (runAll embed scope template)) :
    (∃ text, library.render id scope destination = .ok text ∧ P text)
      ∨ library.render id scope destination = .error .unsuitable := by
  have hrun := h (library.embedded depthLimit)
  rw [Library.render, hl]
  simp only [Bind.bind, Except.bind]
  split
  case isTrue => exact .inr rfl
  case isFalse =>
    cases hr : runAll (library.embedded depthLimit) scope template with
    | ok w =>
        rw [hr] at hrun
        exact .inl ⟨w.1, rfl, hrun⟩
    | error stop =>
        rw [hr] at hrun
        have hstop : stop = .unsuitable := hrun
        subst hstop
        exact .inr rfl

end ApiScaffold.Template
