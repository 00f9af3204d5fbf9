import ApiScaffold.Proofs.Naming
import ApiScaffold.Proofs.Template.Datum
import ApiScaffold.Template.Evaluate

/-!
# The evaluation of templates without lone halves

In a scope that has no lone halves, what an expression or a node without any comes to has none.

The lemmas follow the definitions of evaluation: filters, expressions (`Expr.isWhole_eval`, by
structural induction), and nodes (`Node.isWhole_run`). How templates are embedded is a parameter of
a run, so a node is shown to have no lone half for any way to embed that gives none (`EmbedsWhole`).
-/

namespace ApiScaffold

open Text

namespace Template

/-! ## Filters -/

theorem isWhole_textOf {d : Datum} {s : String} (h : d.isWhole = true) (hs : textOf d = .ok s) :
    Text.isWhole s = true := by
  unfold textOf at hs
  split at hs
  · cases hs
    simpa using h
  · cases hs

theorem isWhole_jsonOf {d : Datum} {s : String} (hs : jsonOf d = .ok s) :
    Text.isWhole s = true := by
  have hrow : ∀ {json? : Datum → Option String} {ds : List Datum} {texts : List String},
      (∀ d s, json? d = some s → Text.isWhole s = true) → ds.mapM json? = some texts →
        Text.isWhole ("[" ++ String.intercalate ", " texts ++ "]") = true := by
    intro json? ds texts hjson ht
    rw [isWhole_append, isWhole_append]
    refine ⟨⟨by decide, isWhole_intercalate (by decide) fun t htm => ?_⟩, by decide⟩
    obtain ⟨d, -, hd⟩ := Attempt.exists_of_mem_mapM? ht htm
    exact hjson d t hd
  unfold jsonOf at hs
  split at hs
  next =>
    split at hs
    next hv =>
      cases hs
      exact Markup.isWhole_json? _ _ hv
    next => cases hs
  next ds =>
    split at hs
    next texts ht =>
      cases hs
      refine hrow (fun d s hd => ?_) ht
      split at hd
      · exact Markup.isWhole_json? _ _ hd
      · cases hd
    next => cases hs
  next ds =>
    split at hs
    next texts ht =>
      cases hs
      refine hrow (fun d s hd => ?_) ht
      split at hd
      · exact Markup.isWhole_json? _ _ hd
      · cases hd
    next => cases hs
  next => cases hs

/-- Whether the text that a filter puts in has no lone half. -/
def Filter.isWhole : Filter → Bool
  | .joined separator => Text.isWhole separator
  | _ => true

theorem Filter.isWhole_apply {f : Filter} {d e : Datum} (hf : f.isWhole = true)
    (h : d.isWhole = true) (he : f.apply d = .ok e) : e.isWhole = true := by
  unfold Filter.apply at he
  split at he
  next =>
    obtain ⟨s, -, he⟩ := Attempt.bind_eq_ok.mp he
    cases he
    simp
  next =>
    obtain ⟨s, hs, he⟩ := Attempt.bind_eq_ok.mp he
    cases he
    simpa using Naming.isWhole_camelToSnake (isWhole_textOf h hs)
  next =>
    obtain ⟨s, -, he⟩ := Attempt.bind_eq_ok.mp he
    cases he
    simp
  next => cases he
  next =>
    obtain ⟨s, hs, he⟩ := Attempt.bind_eq_ok.mp he
    cases he
    simpa using isWhole_lowerFirst (isWhole_textOf h hs)
  next =>
    obtain ⟨s, -, he⟩ := Attempt.bind_eq_ok.mp he
    cases he
    simp
  next =>
    obtain ⟨s, hs, he⟩ := Attempt.bind_eq_ok.mp he
    cases he
    simpa using isWhole_jsonOf hs
  next separator =>
    obtain ⟨ds, hds, he⟩ := Attempt.bind_eq_ok.mp he
    obtain ⟨texts, ht, he⟩ := Attempt.bind_eq_ok.mp he
    cases he
    rw [Datum.isWhole_str]
    refine isWhole_intercalate hf fun s hs => ?_
    obtain ⟨x, hx, hd⟩ := Attempt.exists_of_mem_mapM ht hs
    exact Datum.isWhole_display (Datum.isWhole_items h hds x hx) hd
  next key =>
    obtain ⟨ds, hds, he⟩ := Attempt.bind_eq_ok.mp he
    obtain ⟨es, hes, he⟩ := Attempt.bind_eq_ok.mp he
    cases he
    rw [Datum.isWhole_list]
    intro y hy
    obtain ⟨x, hx, hfield⟩ := Attempt.exists_of_mem_mapM hes hy
    exact Datum.isWhole_field (Datum.isWhole_items h hds x hx) hfield
  next way text =>
    obtain ⟨ds, hds, he⟩ := Attempt.bind_eq_ok.mp he
    obtain ⟨es, hes, he⟩ := Attempt.bind_eq_ok.mp he
    cases he
    rw [Datum.isWhole_list]
    intro y hy
    exact Datum.isWhole_items h hds y (Attempt.mem_of_mem_filterM hes hy)
  next separator =>
    obtain ⟨s, hs, he⟩ := Attempt.bind_eq_ok.mp he
    cases he
    rw [Datum.isWhole_str, isWhole_ofList]
    exact (isWhole_iff.mp (isWhole_textOf h hs)).of_subset (beforeLast_subset _ _)
  next separator =>
    obtain ⟨s, hs, he⟩ := Attempt.bind_eq_ok.mp he
    cases he
    rw [Datum.isWhole_str, isWhole_ofList]
    exact (isWhole_iff.mp (isWhole_textOf h hs)).of_subset (afterLast_subset _ _)
  next => cases he

/-! ## Expressions and nodes -/

/-- Whether no text in sight has a lone half. -/
def Scope.IsWhole (scope : Scope) : Prop := ∀ entry ∈ scope, entry.2.isWhole = true

theorem Scope.IsWhole.find {scope : Scope} (h : Scope.IsWhole scope) (x : String) :
    (Template.find scope x).isWhole = true := by
  have hglobals : ∀ entry ∈ globals, entry.2.isWhole = true := by decide
  unfold Template.find
  cases hf : (List.lookup x scope).or (List.lookup x globals) with
  | none => exact Datum.isWhole_missing
  | some d =>
      rcases Option.or_eq_some_iff.mp hf with hs | ⟨-, hg⟩
      · exact h _ (mem_of_lookup hs)
      · exact hglobals _ (mem_of_lookup hg)

/-- Whether the literals of an expression have no lone halves. -/
def Expr.isWhole : Expr → Bool
  | .name _ | .absent _ => true
  | .literal v => v.isWhole
  | .field e _ | .negate e => e.isWhole
  | .item a b | .either a b | .both a b | .equal a b | .among a b | .beyond _ a b =>
    a.isWhole && b.isWhole
  | .choose condition yes no => condition.isWhole && yes.isWhole && no.isWhole
  | .filtered e f => e.isWhole && f.isWhole

/-- An operation that is not carried out has no value. -/
theorem notCarriedOut_ne_ok {kind : String} {a b d : Datum} : notCarriedOut kind a b ≠ .ok d := by
  intro h
  unfold notCarriedOut at h
  split at h
  · obtain ⟨x, -, h⟩ := Attempt.bind_eq_ok.mp h
    obtain ⟨y, -, h⟩ := Attempt.bind_eq_ok.mp h
    cases h
  · cases h

/-- What an expression without lone halves stands for in such a scope has none. -/
theorem Expr.isWhole_eval {scope : Scope} {e : Expr} {d : Datum} (hs : Scope.IsWhole scope)
    (h : e.isWhole = true) (hd : e.eval scope = .ok d) : d.isWhole = true := by
  induction e generalizing d with
  | name x =>
      cases hd
      exact hs.find x
  | literal v =>
      cases hd
      rwa [Datum.isWhole_value]
  | absent binding =>
      cases hd
      exact Datum.isWhole_missing
  | field e key ih =>
      obtain ⟨x, hx, hd⟩ := Attempt.bind_eq_ok.mp hd
      exact Datum.isWhole_field (ih h hx) hd
  | item e index ih _ =>
      rw [Expr.isWhole, Bool.and_eq_true] at h
      obtain ⟨x, hx, hd⟩ := Attempt.bind_eq_ok.mp hd
      obtain ⟨i, -, hd⟩ := Attempt.bind_eq_ok.mp hd
      exact Datum.isWhole_item (ih h.1 hx) hd
  | either a b iha ihb =>
      rw [Expr.isWhole, Bool.and_eq_true] at h
      obtain ⟨x, hx, hd⟩ := Attempt.bind_eq_ok.mp hd
      obtain ⟨truth, -, hd⟩ := Attempt.bind_eq_ok.mp hd
      split at hd
      · cases hd
        exact iha h.1 hx
      · exact ihb h.2 hd
  | both a b iha ihb =>
      rw [Expr.isWhole, Bool.and_eq_true] at h
      obtain ⟨x, hx, hd⟩ := Attempt.bind_eq_ok.mp hd
      obtain ⟨truth, -, hd⟩ := Attempt.bind_eq_ok.mp hd
      split at hd
      · exact ihb h.2 hd
      · cases hd
        exact iha h.1 hx
  | negate e _ =>
      obtain ⟨x, -, hd⟩ := Attempt.bind_eq_ok.mp hd
      obtain ⟨truth, -, hd⟩ := Attempt.bind_eq_ok.mp hd
      cases hd
      exact Datum.isWhole_bool
  | choose condition yes no _ ihy ihn =>
      rw [Expr.isWhole, Bool.and_eq_true, Bool.and_eq_true] at h
      obtain ⟨x, -, hd⟩ := Attempt.bind_eq_ok.mp hd
      obtain ⟨truth, -, hd⟩ := Attempt.bind_eq_ok.mp hd
      split at hd
      · exact ihy h.1.2 hd
      · exact ihn h.2 hd
  | equal a b _ _ =>
      obtain ⟨x, -, hd⟩ := Attempt.bind_eq_ok.mp hd
      obtain ⟨y, -, hd⟩ := Attempt.bind_eq_ok.mp hd
      obtain ⟨same, -, hd⟩ := Attempt.bind_eq_ok.mp hd
      cases hd
      exact Datum.isWhole_bool
  | among a b _ _ =>
      obtain ⟨x, -, hd⟩ := Attempt.bind_eq_ok.mp hd
      obtain ⟨y, -, hd⟩ := Attempt.bind_eq_ok.mp hd
      obtain ⟨found, -, hd⟩ := Attempt.bind_eq_ok.mp hd
      cases hd
      exact Datum.isWhole_bool
  | filtered e f ih =>
      rw [Expr.isWhole, Bool.and_eq_true] at h
      obtain ⟨x, hx, hd⟩ := Attempt.bind_eq_ok.mp hd
      exact Filter.isWhole_apply h.2 (ih h.1 hx) hd
  | beyond kind a b _ _ =>
      obtain ⟨x, -, hd⟩ := Attempt.bind_eq_ok.mp hd
      obtain ⟨y, -, hd⟩ := Attempt.bind_eq_ok.mp hd
      exact absurd hd notCarriedOut_ne_ok

mutual

/-- Whether the texts and literals of a node have no lone halves. -/
def Node.isWhole : Node → Bool
  | .text s => Text.isWhole s
  | .print e | .assign _ e | .embed e => e.isWhole
  | .branch condition yes no => condition.isWhole && areWhole yes && areWhole no
  | .each _ source body otherwise _ => source.isWhole && areWhole body && areWhole otherwise

def areWhole : List Node → Bool
  | [] => true
  | n :: rest => n.isWhole && areWhole rest

end

/-- A way to embed templates that gives no lone halves in scopes without them. -/
def EmbedsWhole (embed : String → Scope → Except Datum.Stop String) : Prop :=
  ∀ id scope text, Scope.IsWhole scope → embed id scope = .ok text → Text.isWhole text = true

mutual

/-- The text of a node without lone halves, in such a scope, has none, nor has the scope after it.
-/
theorem Node.isWhole_run {embed : String → Scope → Except Datum.Stop String}
    (hembed : EmbedsWhole embed) : ∀ n : Node, n.isWhole = true →
      ∀ (scope after : Scope) (text : String), Scope.IsWhole scope →
        n.run embed scope = .ok (text, after) → Text.isWhole text = true ∧ Scope.IsWhole after
  | .text s, h => by
      intro scope after text hs hr
      rw [Node.run] at hr
      cases hr
      exact ⟨h, hs⟩
  | .print e, h => by
      intro scope after text hs hr
      rw [Node.run] at hr
      obtain ⟨d, hd, hr⟩ := Attempt.bind_eq_ok.mp hr
      obtain ⟨s, ht, hr⟩ := Attempt.bind_eq_ok.mp hr
      cases hr
      exact ⟨Datum.isWhole_display (Expr.isWhole_eval hs h hd) ht, hs⟩
  | .branch condition yes no, h => by
      rw [Node.isWhole, Bool.and_eq_true, Bool.and_eq_true] at h
      intro scope after text hs hr
      rw [Node.run] at hr
      obtain ⟨d, -, hr⟩ := Attempt.bind_eq_ok.mp hr
      obtain ⟨truth, -, hr⟩ := Attempt.bind_eq_ok.mp hr
      split at hr
      · exact isWhole_runAll hembed yes h.1.2 scope after text hs hr
      · exact isWhole_runAll hembed no h.2 scope after text hs hr
  | .each x source body otherwise line, h => by
      rw [Node.isWhole, Bool.and_eq_true, Bool.and_eq_true] at h
      intro scope after text hs hr
      rw [Node.run] at hr
      obtain ⟨d, hd, hr⟩ := Attempt.bind_eq_ok.mp hr
      obtain ⟨items, hitems, hr⟩ := Attempt.bind_eq_ok.mp hr
      split at hr
      · obtain ⟨⟨s, _⟩, ht, hr⟩ := Attempt.bind_eq_ok.mp hr
        cases hr
        exact ⟨(isWhole_runAll hembed otherwise h.2 _ _ _ hs ht).1, hs⟩
      · obtain ⟨texts, ht, hr⟩ := Attempt.bind_eq_ok.mp hr
        cases hr
        refine ⟨isWhole_join fun s htext => ?_, hs⟩
        obtain ⟨⟨item, index⟩, hm, hturn⟩ := Attempt.exists_of_mem_mapM ht htext
        obtain ⟨⟨t, _⟩, hrun, hturn⟩ := Attempt.bind_eq_ok.mp hturn
        cases hturn
        have hitem := Datum.isWhole_items (Expr.isWhole_eval hs h.1.1 hd) hitems item
          (List.mem_of_getElem? (List.mk_mem_zipIdx_iff_getElem?.mp hm))
        refine (isWhole_runAll hembed body h.1.2 _ _ _ (fun entry he => ?_) hrun).1
        rcases List.mem_cons.mp he with rfl | he
        · exact hitem
        · rcases List.mem_cons.mp he with rfl | he
          · exact Datum.isWhole_turn
          · exact hs entry he
  | .assign x e, h => by
      intro scope after text hs hr
      rw [Node.run] at hr
      obtain ⟨d, hd, hr⟩ := Attempt.bind_eq_ok.mp hr
      cases hr
      refine ⟨rfl, fun entry he => ?_⟩
      rcases List.mem_cons.mp he with rfl | he
      · exact Expr.isWhole_eval hs h hd
      · exact hs entry he
  | .embed e, h => by
      intro scope after text hs hr
      rw [Node.run] at hr
      obtain ⟨d, -, hr⟩ := Attempt.bind_eq_ok.mp hr
      obtain ⟨found, -, hr⟩ := Attempt.bind_eq_ok.mp hr
      obtain ⟨id, -, hr⟩ := Attempt.bind_eq_ok.mp hr
      obtain ⟨s, ht, hr⟩ := Attempt.bind_eq_ok.mp hr
      cases hr
      exact ⟨hembed id scope _ hs ht, hs⟩

theorem isWhole_runAll {embed : String → Scope → Except Datum.Stop String}
    (hembed : EmbedsWhole embed) : ∀ template : List Node, areWhole template = true →
      ∀ (scope after : Scope) (text : String), Scope.IsWhole scope →
        runAll embed scope template = .ok (text, after) →
          Text.isWhole text = true ∧ Scope.IsWhole after
  | [], _ => by
      intro scope after text hs hr
      rw [runAll] at hr
      cases hr
      exact ⟨rfl, hs⟩
  | n :: rest, h => by
      rw [areWhole, Bool.and_eq_true] at h
      intro scope after text hs hr
      rw [runAll] at hr
      obtain ⟨⟨s, between⟩, hn, hr⟩ := Attempt.bind_eq_ok.mp hr
      obtain ⟨⟨t, last⟩, hrest, hr⟩ := Attempt.bind_eq_ok.mp hr
      cases hr
      have hfirst := Node.isWhole_run hembed n h.1 scope between s hs hn
      have hsecond := isWhole_runAll hembed rest h.2 between _ t hfirst.2 hrest
      exact ⟨isWhole_append.mpr ⟨hfirst.1, hsecond.1⟩, hsecond.2⟩

end

end Template

end ApiScaffold
