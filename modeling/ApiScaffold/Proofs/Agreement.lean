import ApiScaffold.Proofs.Attempt

/-!
# Two runs side by side

Statements about two documents, or about two ways of computing one thing, compare two attempts.
Attempts agree if both have results, which are related, or both have one failure (`Agree`). They are
similar if they may also fail in different ways, as long as it is for lack of depth in both or in
neither (`Similar`).

Chains of attempts that are so step by step are so as a whole, and that is all that is used of the
two relations: one lemma for each way in which steps are chained, `Agree.bind` and `Similar.bind`
for two steps and the rules for folds and for lists.
-/

namespace ApiScaffold

namespace Attempt

variable {α β γ δ : Type} {R : α → β → Prop} {S : γ → δ → Prop}

/-- Two attempts have related results, or one failure. -/
inductive Agree (R : α → β → Prop) : Attempt α → Attempt β → Prop
  | ok {a : α} {b : β} (h : R a b) : Agree R (.ok a) (.ok b)
  | error (failure : Failure) : Agree R (.error failure) (.error failure)

theorem agree_eq {a b : Attempt α} : Agree Eq a b ↔ a = b := by
  constructor
  · rintro (h | _)
    · exact congrArg Except.ok h
    · rfl
  · rintro rfl
    cases a with
    | error failure => exact .error failure
    | ok x => exact .ok rfl

/-- Chains agree if their first steps agree, and what follows on related results. -/
theorem Agree.bind {a : Attempt α} {b : Attempt β} {f : α → Attempt γ} {k : β → Attempt δ}
    (h : Agree R a b) (hf : ∀ x y, R x y → Agree S (f x) (k y)) :
    Agree S (a >>= f) (b >>= k) := by
  cases h with
  | ok hxy => exact hf _ _ hxy
  | error failure => exact .error failure

/-- Chains with one first step agree if what follows on its result agrees. -/
theorem Agree.bind_same {a : Attempt α} {f : α → Attempt γ} {k : α → Attempt δ}
    (hf : ∀ x, a = .ok x → Agree S (f x) (k x)) : Agree S (a >>= f) (a >>= k) := by
  cases a with
  | error failure => exact .error failure
  | ok x => exact hf x rfl

theorem Agree.pure {x : γ} {y : δ} (h : S x y) : Agree S (Pure.pure x) (Pure.pure y) := .ok h

theorem Agree.imp {T : α → β → Prop} {a : Attempt α} {b : Attempt β} (h : Agree R a b)
    (hRT : ∀ x y, R x y → T x y) : Agree T a b := by
  cases h with
  | ok hxy => exact .ok (hRT _ _ hxy)
  | error failure => exact .error failure

/-- Folds over one list agree if their steps agree for its items. -/
theorem agree_foldlM {f : γ → α → Attempt γ} {k : δ → α → Attempt δ} {xs : List α}
    (hf : ∀ x ∈ xs, ∀ c d, S c d → Agree S (f c x) (k d x)) {c : γ} {d : δ} (h : S c d) :
    Agree S (xs.foldlM f c) (xs.foldlM k d) := by
  induction xs generalizing c d with
  | nil => exact .pure h
  | cons x xs ih =>
      rw [List.forall_mem_cons] at hf
      rw [List.foldlM_cons, List.foldlM_cons]
      exact (hf.1 c d h).bind fun _ _ hcd => ih hf.2 hcd

/-- An attempt does not fail as one does whose depth is used up. -/
def Ends (x : Attempt α) : Prop := x ≠ .error .unsuitable

theorem ends_ok (a : α) : Ends (.ok a) := by simp [Ends]

theorem eq_of_not_ends {x : Attempt α} (h : ¬Ends x) : x = .error .unsuitable := not_not.mp h

/-- Two attempts have related results, or both fail, for lack of depth or both for another reason.
-/
inductive Similar (R : α → β → Prop) : Attempt α → Attempt β → Prop
  | ok {a : α} {b : β} (h : R a b) : Similar R (.ok a) (.ok b)
  | error {f f' : Failure} (h : f = .unsuitable ↔ f' = .unsuitable) :
      Similar R (.error f) (.error f')

namespace Similar

theorem ends {x : Attempt α} {y : Attempt β} (h : Similar R x y) : Ends x ↔ Ends y := by
  cases h with
  | ok _ => exact iff_of_true (ends_ok _) (ends_ok _)
  | error h => simpa [Ends] using not_congr h

theorem bind {x : Attempt α} {y : Attempt β} {f : α → Attempt γ} {k : β → Attempt δ}
    (h : Similar R x y) (hf : ∀ a b, R a b → Similar S (f a) (k b)) :
    Similar S (x >>= f) (y >>= k) := by
  cases h with
  | ok h => exact hf _ _ h
  | error h => exact .error h

theorem bind_same {x : Attempt α} {f : α → Attempt γ} {k : α → Attempt δ}
    (hf : ∀ a, Similar S (f a) (k a)) : Similar S (x >>= f) (x >>= k) := by
  cases x with
  | ok a => exact hf a
  | error failure => exact .error .rfl

theorem foldlM {f : γ → α → Attempt γ} {k : δ → α → Attempt δ} (xs : List α)
    (hf : ∀ x c d, S c d → Similar S (f c x) (k d x)) {c : γ} {d : δ} (h : S c d) :
    Similar S (xs.foldlM f c) (xs.foldlM k d) := by
  induction xs generalizing c d with
  | nil => exact .ok h
  | cons x xs ih =>
      rw [List.foldlM_cons, List.foldlM_cons]
      exact (hf x c d h).bind fun _ _ hcd => ih hcd

end Similar

end Attempt

/-- Steps for the items of lists that are related item by item are the same, if those for related
items are. -/
theorem mapM_eq_of_forall₂ {m : Type → Type} [Monad m] [LawfulMonad m] {α β γ : Type}
    {R : α → β → Prop} {f : α → m γ} {k : β → m γ} {xs : List α} {ys : List β}
    (h : List.Forall₂ R xs ys) (hf : ∀ x y, R x y → f x = k y) : xs.mapM f = ys.mapM k := by
  induction h with
  | nil => rfl
  | cons hxy _ ih => rw [List.mapM_cons, List.mapM_cons, hf _ _ hxy, ih]

end ApiScaffold
