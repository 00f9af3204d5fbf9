import ApiScaffold.Document.Value

/-!
# When values are one key

Each value that can be a key has something that it is compared by (`KeyView`): a number its ratio, a
moment its instant, a text itself. Two values are one key exactly if these are the same
(`keyEq_iff`).

So to be one key is symmetric and transitive. It is not reflexive: what is no number is not even one
key with itself, and statements about keys have to say what follows from that.
-/

namespace ApiScaffold

/-- What a key is compared by. -/
inductive KeyView where
  | null
  | number (ratio : Rat)
  | infinite (negative : Bool)
  | str (s : String)
  | bytes (bs : List UInt8)
  | date (d : Day)
  | moment (isAhead : Bool) (instant : Int)

namespace Binary64

theorem magnitude_ne_zero (mantissa : Nat) (exponent : Int) :
    (magnitude mantissa exponent).2 ≠ 0 := by
  have hpow : Nat.pow 2 (-exponent).toNat ≠ 0 := Nat.ne_of_gt (Nat.two_pow_pos _)
  unfold magnitude scaleRatio
  split
  · rwa [Nat.one_mul]
  · exact Nat.one_ne_zero

/-- What a floating-point number is compared by as a key. -/
def keyView? : Binary64 → Option KeyView
  | .finite negative m e =>
    let r := magnitude m e
    some (.number (mkRat (if negative then -Int.ofNat r.1 else Int.ofNat r.1) r.2))
  | .infinite negative => some (.infinite negative)
  | .nan => none

end Binary64

namespace Value

/-- What a value is compared by as a key. -/
def keyView? : Value → Option KeyView
  | .null => some .null
  | .bool b => some (.number (mkRat (if b then 1 else 0) 1))
  | .int n => some (.number (mkRat n 1))
  | .float x => x.keyView?
  | .str s => some (.str s)
  | .bytes bs => some (.bytes bs)
  | .date d => some (.date d)
  | .moment m => some (.moment m.ahead?.isSome m.instant)
  | _ => none

theorem keyEq_iff {v w : Value} :
    v.keyEq w = true ↔ v.keyView? = w.keyView? ∧ v.keyView? ≠ none := by
  have hm := Binary64.magnitude_ne_zero
  cases v with
  | float x =>
      cases w with
      | float y =>
          cases x <;> cases y <;>
            simp [keyEq, keyView?, Binary64.keyView?, Binary64.sameValue, Binary64.toRatio?,
              Rat.mkRat_eq_iff, hm]
      | _ =>
          cases x <;>
            simp [keyEq, keyView?, Binary64.keyView?, ratio?, Binary64.toRatio?, Rat.mkRat_eq_iff,
              hm]
  | _ =>
      cases w with
      | float y =>
          cases y <;>
            simp [keyEq, keyView?, Binary64.keyView?, ratio?, Binary64.toRatio?, Rat.mkRat_eq_iff,
              hm]
      | _ =>
          simp [keyEq, keyView?, ratio?, Rat.mkRat_eq_iff, Moment.sameInstant]

theorem keyEq_symm {v w : Value} (h : v.keyEq w = true) : w.keyEq v = true := by
  rw [keyEq_iff] at h ⊢
  exact ⟨h.1.symm, h.1 ▸ h.2⟩

theorem keyEq_trans {u v w : Value} (huv : u.keyEq v = true) (hvw : v.keyEq w = true) :
    u.keyEq w = true := by
  rw [keyEq_iff] at huv hvw ⊢
  exact ⟨huv.1.trans hvw.1, huv.2⟩

end Value

end ApiScaffold
