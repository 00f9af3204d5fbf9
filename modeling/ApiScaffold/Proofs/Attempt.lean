import ApiScaffold.Log
import Mathlib.Data.List.Forall2

/-!
# Attempts taken apart

A chain of steps that may fail has a result exactly if each of its steps has one. The lemmas here
say so for every form of chain that the library uses: `bind_eq_ok` and `bind_eq_error` for two
steps, `mapM_eq_ok` for the items of a list, `rel_of_foldlM` and `exists_of_foldlM_error` for folds.

What a definition in `do` notation does is then stated once, beside it, and its proofs need no
unfolding. A step that reports has the result that it has without its report (`result_bind`), so
statements about results leave the reports out.
-/

namespace ApiScaffold

namespace Attempt

theorem bind_eq_ok {ε α β : Type} {a : Except ε α} {f : α → Except ε β} {b : β} :
    (a >>= f) = .ok b ↔ ∃ x, a = .ok x ∧ f x = .ok b := by
  cases a with
  | error failure => simp [Bind.bind, Except.bind]
  | ok x => simp [Bind.bind, Except.bind]

theorem bind_eq_error {ε α β : Type} {a : Except ε α} {f : α → Except ε β} {failure : ε} :
    (a >>= f) = .error failure
      ↔ a = .error failure ∨ ∃ x, a = .ok x ∧ f x = .error failure := by
  cases a with
  | error first => simp [Bind.bind, Except.bind]
  | ok x => simp [Bind.bind, Except.bind]

theorem pure_eq_ok {ε α : Type} {a b : α} : (pure a : Except ε α) = .ok b ↔ a = b := by
  simp [pure, Except.pure]

theorem map_eq_ok {ε α β : Type} {a : Except ε α} {f : α → β} {b : β} :
    (f <$> a) = .ok b ↔ ∃ x, a = .ok x ∧ f x = b := by
  cases a with
  | error failure => simp [Functor.map, Except.map]
  | ok x => simp [Functor.map, Except.map]

theorem require_eq_ok {α : Type} {o : Option α} {a : α} : require o = .ok a ↔ o = some a := by
  cases o <;> simp [require]

theorem eq_unsuitable_of_require {α : Type} {o : Option α} {failure : Failure}
    (h : require o = .error failure) : failure = .unsuitable := by
  cases o with
  | none => exact (Except.error.inj h).symm
  | some a => cases h

/-- A step for every item of a list has a result exactly if it has one for each. -/
theorem mapM_eq_ok {ε α β : Type} {f : α → Except ε β} {xs : List α} {ys : List β} :
    xs.mapM f = .ok ys ↔ List.Forall₂ (fun x y => f x = .ok y) xs ys := by
  induction xs generalizing ys with
  | nil => cases ys <;> simp [pure_eq_ok]
  | cons x xs ih =>
      rw [List.mapM_cons]
      simp only [bind_eq_ok, pure_eq_ok, ih]
      cases ys with
      | nil => simp
      | cons y ys =>
          rw [List.forall₂_cons]
          constructor
          · rintro ⟨y', hy, ys', hys, h⟩
            cases h
            exact ⟨hy, hys⟩
          · rintro ⟨hy, hys⟩
            exact ⟨y, hy, ys, hys, rfl⟩

/-- A fold whose steps lead from a state to a related one leads from its first to a related one. -/
theorem rel_of_foldlM {ε α β : Type} {R : β → β → Prop} {f : β → α → Except ε β} {xs : List α}
    (hrefl : ∀ b, R b b) (htrans : ∀ b c d, R b c → R c d → R b d)
    (hf : ∀ x ∈ xs, ∀ b c, f b x = .ok c → R b c) {b c : β} (h : xs.foldlM f b = .ok c) :
    R b c := by
  induction xs generalizing b with
  | nil =>
      cases h
      exact hrefl _
  | cons x xs ih =>
      rw [List.foldlM_cons] at h
      obtain ⟨next, hx, h⟩ := bind_eq_ok.mp h
      rw [List.forall_mem_cons] at hf
      exact htrans _ _ _ (hf.1 _ _ hx) (ih hf.2 h)

/-- A fold that fails has a first step that fails. -/
theorem exists_of_foldlM_error {ε α β : Type} {f : β → α → Except ε β} {xs : List α} {b : β}
    {failure : ε} (h : xs.foldlM f b = .error failure) :
    ∃ before x after c, xs = before ++ x :: after ∧ before.foldlM f b = .ok c
      ∧ f c x = .error failure := by
  induction xs generalizing b with
  | nil => cases h
  | cons x xs ih =>
      rw [List.foldlM_cons] at h
      cases hx : f b x with
      | error first =>
          rw [hx] at h
          cases h
          exact ⟨[], x, xs, b, rfl, rfl, hx⟩
      | ok next =>
          rw [hx] at h
          obtain ⟨before, y, after, c, rfl, hbefore, hy⟩ := ih h
          refine ⟨x :: before, y, after, c, rfl, ?_, hy⟩
          rw [List.foldlM_cons, hx]
          exact hbefore

/-- In lists that are related item by item, each item of the second has one of the first. -/
theorem exists_of_forall₂ {α β : Type} {R : α → β → Prop} {xs : List α} {ys : List β} {y : β}
    (h : List.Forall₂ R xs ys) (hy : y ∈ ys) : ∃ x ∈ xs, R x y := by
  induction h with
  | nil => cases hy
  | @cons x z xs zs hx _ ih =>
      rcases List.mem_cons.mp hy with rfl | hy
      · exact ⟨x, List.mem_cons_self, hx⟩
      · obtain ⟨w, hw, hr⟩ := ih hy
        exact ⟨w, List.mem_cons_of_mem _ hw, hr⟩

/-- Relations between items compose to one between lists. -/
theorem forall₂_comp {α β γ : Type} {R : α → β → Prop} {S : β → γ → Prop} {T : α → γ → Prop}
    (hcomp : ∀ a b c, R a b → S b c → T a c) {xs : List α} {ys : List β} {zs : List γ}
    (hxy : List.Forall₂ R xs ys) (hyz : List.Forall₂ S ys zs) : List.Forall₂ T xs zs := by
  induction hxy generalizing zs with
  | nil =>
      cases hyz
      exact .nil
  | cons hr _ ih =>
      cases hyz with
      | cons hs hrest => exact .cons (hcomp _ _ _ hr hs) (ih hrest)

/-- What steps for the items of a list have given was given for one of them. -/
theorem exists_of_mem_mapM {ε α β : Type} {f : α → Except ε β} {xs : List α} {ys : List β} {y : β}
    (h : xs.mapM f = .ok ys) (hy : y ∈ ys) : ∃ x ∈ xs, f x = .ok y :=
  exists_of_forall₂ (R := fun x y => f x = .ok y) (mapM_eq_ok.mp h) hy

/-- Steps for all items of a list give what each of them gives. -/
theorem forall₂_of_mapM? {α β : Type} {f : α → Option β} {xs : List α} {ys : List β}
    (h : xs.mapM f = some ys) : List.Forall₂ (fun x y => f x = some y) xs ys := by
  induction xs generalizing ys with
  | nil =>
      cases h
      exact .nil
  | cons x xs ih =>
      rw [List.mapM_cons] at h
      obtain ⟨z, hz, h⟩ := Option.bind_eq_some_iff.mp h
      obtain ⟨zs, hzs, h⟩ := Option.bind_eq_some_iff.mp h
      cases h
      exact .cons hz (ih hzs)

theorem exists_of_mem_mapM? {α β : Type} {f : α → Option β} {xs : List α} {ys : List β} {y : β}
    (h : xs.mapM f = some ys) (hy : y ∈ ys) : ∃ x ∈ xs, f x = some y :=
  exists_of_forall₂ (R := fun x y => f x = some y) (forall₂_of_mapM? h) hy

theorem mem_of_filterAuxM {ε α : Type} {f : α → Except ε Bool} {xs before ys : List α} {y : α}
    (h : xs.filterAuxM f before = .ok ys) (hy : y ∈ ys) : y ∈ xs ∨ y ∈ before := by
  induction xs generalizing before with
  | nil =>
      cases h
      exact .inr hy
  | cons x xs ih =>
      obtain ⟨keeps, -, h⟩ := bind_eq_ok.mp h
      rcases ih h with hm | hm
      · exact .inl (List.mem_cons_of_mem _ hm)
      · cases keeps with
        | false => exact .inr hm
        | true =>
            rcases List.mem_cons.mp hm with rfl | hm
            · exact .inl List.mem_cons_self
            · exact .inr hm

theorem mem_of_mem_filterM {ε α : Type} {f : α → Except ε Bool} {xs ys : List α} {y : α}
    (h : xs.filterM f = .ok ys) (hy : y ∈ ys) : y ∈ xs := by
  obtain ⟨found, hf, h⟩ := bind_eq_ok.mp h
  cases h
  rcases mem_of_filterAuxM hf (List.mem_reverse.mp hy) with hm | hm
  · exact hm
  · cases hm

/-- An attempt that an observation of its result is known of has succeeded. -/
theorem exists_of_toOption_map {ε α β : Type} {a : Except ε α} {f : α → β} {b : β}
    (h : a.toOption.map f = some b) : ∃ x, a = .ok x ∧ f x = b := by
  cases a with
  | error failure => cases h
  | ok x => exact ⟨x, rfl, Option.some.inj h⟩

/-- The message of a failure. -/
def message? {α : Type} : Attempt α → Option String
  | .ok _ => none
  | .error failure => some failure.message

theorem exists_of_message? {α : Type} {a : Attempt α} {text : String}
    (h : a.message? = some text) : ∃ failure, a = .error failure ∧ failure.message = text := by
  cases a with
  | ok _ => cases h
  | error failure => exact ⟨failure, rfl, Option.some.inj h⟩

theorem eq_ok_get {ε α : Type} {a : Except ε α} (h : a.toOption.isSome = true) :
    a = .ok (a.toOption.get h) := by
  cases a with
  | error failure => cases h
  | ok x => rfl

end Attempt

namespace Logged

@[simp] theorem result_pure {α : Type} (a : α) : (pure a : Logged α).result = .ok a := rfl

@[simp] theorem result_ofAttempt {α : Type} (a : Attempt α) : (ofAttempt a).result = a := rfl

@[simp] theorem result_lift {α : Type} (a : Attempt α) :
    (liftM a : Logged α).result = a := rfl

theorem lift_ok {α : Type} (a : α) : (liftM (.ok a : Attempt α) : Logged α) = pure a := rfl

theorem lift_error_bind {α β : Type} (failure : Failure) (f : α → Logged β) :
    (liftM (.error failure : Attempt α) >>= f) = ofAttempt (.error failure) := rfl

@[simp] theorem result_report (level : Level) (reporter : Reporter) (text : String) :
    (report level reporter text).result = .ok () := rfl

/-- The result of a chain is the chain of the results. -/
@[simp] theorem result_bind {α β : Type} (a : Logged α) (f : α → Logged β) :
    (a >>= f).result = a.result >>= fun x => (f x).result := by
  show (Logged.bind a f).result = _
  cases h : a.result with
  | error failure => simp [Logged.bind, h, Bind.bind, Except.bind]
  | ok x => simp [Logged.bind, h, Bind.bind, Except.bind]

instance : LawfulMonad Logged := LawfulMonad.mk' Logged
  (by
    intro α a
    show Logged.bind a _ = a
    cases a with
    | mk log result => cases result <;> simp [Logged.bind])
  (by
    intro α β a f
    show Logged.bind { log := [], result := .ok a } f = f a
    simp [Logged.bind])
  (by
    intro α β γ a f h
    show Logged.bind (Logged.bind a f) h = Logged.bind a fun x => Logged.bind (f x) h
    cases a with
    | mk log result =>
        cases result with
        | error failure => simp [Logged.bind]
        | ok x =>
            cases hx : (f x).result <;> simp [Logged.bind, hx])

@[simp] theorem result_mapM {α β : Type} (f : α → Logged β) (xs : List α) :
    (xs.mapM f).result = xs.mapM fun x => (f x).result := by
  induction xs with
  | nil => rfl
  | cons x xs ih => simp [List.mapM_cons, ih, pure, Except.pure]

end Logged

end ApiScaffold
