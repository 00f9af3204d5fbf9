import ApiScaffold.Proofs.Document.Value
import ApiScaffold.Proofs.Run.Stages

/-!
# Which options become settings

Options are read one after the other, as texts, flags or a count, and the first one that is not
accepted ends the reading: mostly with an account that shows its value. There is none where the
value holds an integer that is too long to be written, or where a count is infinite.

* `OptionKind` and `readings`: what the value of each option is read as, in the order of reading.
  Acceptance is said of values alone, without the reader (`OptionKind.Accepts`,
  `OptionKind.Escapes`).
* `Reading`: what the reading of several options comes to. `reading_ofOptions` shows that settings
  are made in this way.
* `classifiesOptions_iff`: a generator turns its options into settings, or refuses them with an
  account, exactly if the first option that is not accepted is none that escapes.
-/

namespace ApiScaffold

open Attempt

/-- What the value of an option is read as. -/
inductive OptionKind where
  | text
  | flag
  | count

namespace Options

/-- The value of an option, or nothing. -/
def value (options : Options) (key : String) : Value := (options.get? key).getD .null

/-- The options that settings are made of, in the order in which they are read. -/
def readings : List (String × OptionKind) := [
  ("interfaceOnly", .flag), ("baseName", .text), ("artifactId", .text), ("artifactVersion", .text),
  ("groupId", .text), ("includeBuildDescriptor", .flag), ("sourceFolder", .text),
  ("apiPackage", .text), ("modelPackage", .text), ("invokerPackage", .text),
  ("packageName", .text), ("permissiveTypes", .flag), ("generateModels", .flag),
  ("generateApis", .flag), ("generateSupportingFiles", .flag), ("workers", .count)]

/-- A value that is a flag. -/
def IsFlag : Value → Prop
  | .bool _ => True
  | .int n => n = 0 ∨ n = 1
  | .str s => Text.lower (Text.trim s) ∈ trueWords ++ falseWords
  | _ => False

/-- The integer that a value stands for: itself, the integer part of a number, or that of a numeral.
-/
def integer? : Value → Option Int
  | .int n => some n
  | .float x => x.truncate?
  | .str s => Numeral.integer? s
  | _ => none

/-- A value that stands for a positive integer. -/
def IsCount (v : Value) : Prop := ∃ n ∈ integer? v, 1 ≤ n

instance : DecidablePred IsFlag
  | .bool _ => .isTrue trivial
  | .int n => inferInstanceAs (Decidable (n = 0 ∨ n = 1))
  | .str s => inferInstanceAs (Decidable (Text.lower (Text.trim s) ∈ trueWords ++ falseWords))
  | .null | .float _ | .bytes _ | .date _ | .moment _ | .list _ | .pair _ _ | .set _ | .map _
  | .again _ => .isFalse id

instance : DecidablePred IsCount := fun v =>
  inferInstanceAs (Decidable (∃ n ∈ integer? v, 1 ≤ n))

end Options

/-- A value that an option of a kind may have. -/
def OptionKind.Accepts : OptionKind → Value → Prop
  | text, v => v.isWritable = true
  | flag, v => Options.IsFlag v
  | count, v => Options.IsCount v

instance (kind : OptionKind) : DecidablePred kind.Accepts :=
  match kind with
  | .text => fun v => inferInstanceAs (Decidable (v.isWritable = true))
  | .flag => fun v => inferInstanceAs (Decidable (Options.IsFlag v))
  | .count => fun v => inferInstanceAs (Decidable (Options.IsCount v))

/-- A value that an option of a kind may not have and that no account tells of: one with an integer
too long to be written, or an infinite count. -/
def OptionKind.Escapes (kind : OptionKind) (v : Value) : Prop :=
  ¬kind.Accepts v
    ∧ (v.isWritable = false ∨ kind = count ∧ ∃ negative, v = .float (.infinite negative))

/-- What the reading of a value as an option of a kind comes to. -/
inductive OptionKind.Comes {α : Type} (kind : OptionKind) (v : Value) : Attempt α → Prop
  | accepted (a : α) (h : kind.Accepts v) : Comes kind v (.ok a)
  | refused (fault : ConfigFault) (h : ¬kind.Accepts v) (he : ¬kind.Escapes v) :
      Comes kind v (.error (.config fault))
  | escaped (he : kind.Escapes v) : Comes kind v (.error .unsuitable)

namespace Options

variable {key : String} {v : Value}

/-! ## Single options -/

/-- A value is refused with an account, if its integers can be written. -/
theorem comes_refuse {α : Type} {kind : OptionKind} {fault : ConfigFault} (h : ¬kind.Accepts v)
    (hfinite : kind = .count → ∀ negative, v ≠ .float (.infinite negative)) :
    kind.Comes v (refuse v fault : Attempt α) := by
  unfold refuse
  split
  next hw =>
    refine .refused fault h fun he => ?_
    rcases he.2 with hlong | ⟨hkind, negative, hinfinite⟩
    · simp [hw] at hlong
    · exact hfinite hkind negative hinfinite
  next hw => exact .escaped ⟨h, .inl (by simpa using hw)⟩

theorem comes_text (v : Value) : OptionKind.text.Comes v (text v) := by
  unfold text Value.display?
  split
  next hw => exact .accepted _ hw
  next hw => exact .escaped ⟨hw, .inl (by simpa using hw)⟩

theorem comes_flag (key : String) (v : Value) : OptionKind.flag.Comes v (flag key v) := by
  have refused (h : ¬IsFlag v) :
      OptionKind.flag.Comes v (refuse v (.expectsBoolean key v) : Attempt Bool) :=
    comes_refuse h nofun
  unfold flag
  dsimp only
  split
  next b => exact .accepted b trivial
  next => exact .accepted false (.inl rfl)
  next => exact .accepted true (.inr rfl)
  next s =>
    have hword : IsFlag (.str s) ↔ Text.lower (Text.trim s) ∈ trueWords ++ falseWords := Iff.rfl
    simp only [List.contains_iff_mem]
    split
    next ht => exact .accepted true (hword.mpr (List.mem_append_left _ ht))
    next ht =>
      split
      next hf => exact .accepted false (hword.mpr (List.mem_append_right _ hf))
      next hf => exact refused fun h => (List.mem_append.mp (hword.mp h)).elim ht hf
  next hbool hzero hone hstr =>
    refine refused fun h => ?_
    cases v with
    | bool b => exact hbool b rfl
    | int n =>
        rcases h with rfl | rfl
        · exact hzero rfl
        · exact hone rfl
    | str s => exact hstr s rfl
    | _ => exact h

/-- A value that stands for an integer is a count unless the integer is too small. -/
theorem comes_count_of_integer? {n : Int} (hpart : integerPart key v = .ok n)
    (hn : integer? v = some n) (hfinite : ∀ negative, v ≠ .float (.infinite negative)) :
    OptionKind.count.Comes v (count key v 1) := by
  have hcount : count key v 1 = if n < 1 then refuse v (.integerTooSmall key 1 v) else .ok n := by
    rw [count, hpart]
    cases v with
    | bool b => cases hn
    | _ => rfl
  rw [hcount]
  split
  next hsmall =>
    refine comes_refuse ?_ fun _ => hfinite
    rintro ⟨m, hm, hle⟩
    rw [hn] at hm
    cases hm
    omega
  next hsmall => exact .accepted n ⟨n, hn, by omega⟩

/-- A value for which no integer is read is no count. -/
theorem comes_count_of_refused {fault : ConfigFault} (hpart : integerPart key v = refuse v fault)
    (hn : integer? v = none) (hfinite : ∀ negative, v ≠ .float (.infinite negative)) :
    OptionKind.count.Comes v (count key v 1) := by
  have hcount : count key v 1 = refuse v fault := by
    rw [count, hpart, refuse, refuse]
    split <;> rfl
  rw [hcount]
  refine comes_refuse ?_ fun _ => hfinite
  rintro ⟨m, hm, -⟩
  rw [hn] at hm
  cases hm

theorem comes_count (key : String) (v : Value) : OptionKind.count.Comes v (count key v 1) := by
  cases v with
  | int n => exact comes_count_of_integer? rfl rfl nofun
  | float x =>
      cases x with
      | nan => exact comes_count_of_refused rfl rfl nofun
      | infinite negative =>
          refine .escaped ⟨?_, .inr ⟨rfl, negative, rfl⟩⟩
          rintro ⟨n, hn, -⟩
          cases hn
      | finite negative m e => exact comes_count_of_integer? rfl rfl nofun
  | str s =>
      cases hs : Numeral.integer? s with
      | some n => exact comes_count_of_integer? (by rw [integerPart, hs]) hs nofun
      | none => exact comes_count_of_refused (by rw [integerPart, hs]) hs nofun
  | bool b =>
      -- a boolean has an integer part, which is not counted
      refine comes_refuse ?_ nofun
      rintro ⟨n, hn, -⟩
      cases hn
  | _ => exact comes_count_of_refused rfl rfl nofun

/-- What counts as false holds no integer that is too long. -/
theorem isWritable_of_not_isTruthy (h : v.isTruthy = false) : v.isWritable = true := by
  cases v with
  | int n =>
      obtain rfl : n = 0 := by simpa [Value.isTruthy] using h
      exact Value.isWritable_of_lt_ten (by decide)
  | list items =>
      cases items with
      | nil => rfl
      | cons => cases h
  | pair => cases h
  | set elements =>
      cases elements with
      | nil => rfl
      | cons => cases h
  | map members =>
      cases members with
      | nil => rfl
      | cons => cases h
  | _ => rfl

theorem comes_artifact (t : Target) (v : Value) (baseName : String) (interfaceOnly : Bool) :
    OptionKind.text.Comes v (Settings.readArtifact t v baseName interfaceOnly) := by
  unfold Settings.readArtifact
  split
  next => exact comes_text v
  next h => exact .accepted _ (isWritable_of_not_isTruthy (by simpa using h))

theorem le_of_count_eq_ok {least n : Int} (h : count key v least = .ok n) : least ≤ n := by
  obtain ⟨m, -, h⟩ := bind_eq_ok.mp h
  have hrefuse : ∀ fault, (refuse v fault : Attempt Int) ≠ .ok n := by
    intro fault hr
    unfold refuse at hr
    split at hr <;> cases hr
  split at h
  next => exact absurd h (hrefuse _)
  next =>
    split at h
    next => exact absurd h (hrefuse _)
    next hle =>
      cases h
      omega

/-! ## All options -/

variable {o : Options} {rs rest : List (String × OptionKind)}

/-- What the reading of options in their order comes to: the first that is not accepted decides, and
what is made of them all has a property. -/
inductive Reading (o : Options) {α : Type} (P : α → Prop) :
    List (String × OptionKind) → Attempt α → Prop
  | done {a : α} (h : P a) : Reading o P [] (.ok a)
  | next {key : String} {kind : OptionKind} {rest : List (String × OptionKind)} {a : Attempt α}
      (h : kind.Accepts (o.value key)) (hr : Reading o P rest a) :
      Reading o P ((key, kind) :: rest) a
  | refused {key : String} {kind : OptionKind} {rest : List (String × OptionKind)}
      (fault : ConfigFault) (h : ¬kind.Accepts (o.value key)) (he : ¬kind.Escapes (o.value key)) :
      Reading o P ((key, kind) :: rest) (.error (.config fault))
  | escaped {key : String} {kind : OptionKind} {rest : List (String × OptionKind)}
      (he : kind.Escapes (o.value key)) : Reading o P ((key, kind) :: rest) (.error .unsuitable)

theorem Reading.bind {α β : Type} {P : β → Prop} {kind : OptionKind} {a : Attempt α}
    {f : α → Attempt β} (ha : kind.Comes (o.value key) a)
    (hf : ∀ x, a = .ok x → Reading o P rest (f x)) :
    Reading o P ((key, kind) :: rest) (a >>= f) := by
  cases ha with
  | accepted x h => exact .next h (hf x rfl)
  | refused fault h he => exact .refused fault h he
  | escaped he => exact .escaped he

/-- Options of which the first that is not accepted is one that no account tells of. -/
def EscapeFirst (o : Options) (rs : List (String × OptionKind)) : Prop :=
  ∃ before key kind after, rs = before ++ (key, kind) :: after
    ∧ (∀ r ∈ before, r.2.Accepts (o.value r.1)) ∧ kind.Escapes (o.value key)

theorem escapeFirst_cons {kind : OptionKind} : EscapeFirst o ((key, kind) :: rest) ↔
    kind.Escapes (o.value key) ∨ kind.Accepts (o.value key) ∧ EscapeFirst o rest := by
  constructor
  · rintro ⟨before, k, c, after, hsplit, hbefore, he⟩
    cases before with
    | nil =>
        cases hsplit
        exact .inl he
    | cons r before =>
        cases hsplit
        obtain ⟨hr, hbefore⟩ := List.forall_mem_cons.mp hbefore
        exact .inr ⟨hr, before, k, c, after, rfl, hbefore, he⟩
  · rintro (he | ⟨h, before, k, c, after, rfl, hbefore, he⟩)
    · exact ⟨[], key, kind, rest, rfl, nofun, he⟩
    · exact ⟨(key, kind) :: before, k, c, after, rfl, List.forall_mem_cons.mpr ⟨h, hbefore⟩, he⟩

theorem not_escapeFirst_of_accepts (h : ∀ r ∈ rs, r.2.Accepts (o.value r.1)) :
    ¬EscapeFirst o rs := by
  rintro ⟨before, key, kind, after, rfl, -, he⟩
  exact he.1 (h (key, kind) (by simp))

variable {α : Type} {P : α → Prop} {a : Attempt α}

/-- The reading fails without an account exactly if the options escape. -/
theorem Reading.eq_unsuitable_iff (h : Reading o P rs a) :
    a = .error .unsuitable ↔ EscapeFirst o rs := by
  induction h with
  | done => exact ⟨nofun, fun he => absurd he (not_escapeFirst_of_accepts nofun)⟩
  | next h _ ih =>
      rw [ih, escapeFirst_cons]
      exact ⟨fun he => .inr ⟨h, he⟩, fun he => he.elim (fun he => absurd h he.1) And.right⟩
  | refused fault h he =>
      rw [escapeFirst_cons]
      exact ⟨nofun, fun hf => hf.elim (absurd · he) fun hf => absurd hf.1 h⟩
  | escaped he => exact ⟨fun _ => escapeFirst_cons.mpr (.inl he), fun _ => rfl⟩

/-- The reading ends with what has the property, with an account or without one. -/
theorem Reading.ends (h : Reading o P rs a) :
    (∃ x, a = .ok x ∧ P x) ∨ (∃ fault, a = .error (.config fault)) ∨ a = .error .unsuitable := by
  induction h with
  | done h => exact .inl ⟨_, rfl, h⟩
  | next _ _ ih => exact ih
  | refused fault => exact .inr (.inl ⟨fault, rfl⟩)
  | escaped => exact .inr (.inr rfl)

/-- Settings are made of options that are read in their order, and count at least one worker. -/
theorem reading_ofOptions (t : Target) (o : Options) :
    Reading o (fun s : Settings => 1 ≤ s.workers) readings (Settings.ofOptions t o) := by
  have texts {key : String} {rest : List (String × OptionKind)} {f : String → Attempt Settings}
      (hf : ∀ s, Reading o (fun s => 1 ≤ s.workers) rest (f s)) :
      Reading o (fun s => 1 ≤ s.workers) ((key, .text) :: rest) (text (o.value key) >>= f) :=
    .bind (comes_text _) fun s _ => hf s
  have flags {key : String} {rest : List (String × OptionKind)} {f : Bool → Attempt Settings}
      (hf : ∀ b, Reading o (fun s => 1 ≤ s.workers) rest (f b)) :
      Reading o (fun s => 1 ≤ s.workers) ((key, .flag) :: rest) (flag key (o.value key) >>= f) :=
    .bind (comes_flag _ _) fun b _ => hf b
  exact flags fun interfaceOnly => texts fun baseName =>
    .bind (comes_artifact t _ baseName interfaceOnly) fun _ _ => texts fun _ => texts fun _ =>
      flags fun _ => texts fun _ => texts fun _ => texts fun _ => texts fun _ => texts fun _ =>
        flags fun _ => flags fun _ => flags fun _ => flags fun _ =>
          .bind (comes_count _ _) fun _ hworkers => .done (le_of_count_eq_ok hworkers)

end Options

namespace Generator

variable {g : Generator}

/-- The options of a generator are turned into settings with a positive count of workers, or refused
as a configuration that cannot be used. -/
def ClassifiesOptions (g : Generator) : Prop :=
  (∃ s, g.processOptions.result = .ok s ∧ 1 ≤ s.workers)
    ∨ ∃ fault, g.processOptions.result = .error (.config fault)

theorem result_processOptions (h : g.phase = .created ∨ g.phase = .configured) :
    g.processOptions.result = Settings.ofOptions g.target g.runOptions := by
  have ha : g.advance [.created, .configured] .configured
      = .ok { g with phase := .configured } :=
    advance_eq_ok.mpr ⟨by simpa using h, rfl⟩
  simp only [processOptions, ha, runOptions]
  cases Settings.ofOptions g.target ((Options.defaultsOf g.target).merge g.options) <;> rfl

/-- A generator that is new or configured classifies its options, unless the first one in the order
of reading that is not accepted holds an integer too long to be written, or is an infinite count of
workers. -/
theorem classifiesOptions_iff (h : g.phase = .created ∨ g.phase = .configured) :
    g.ClassifiesOptions ↔ ¬Options.EscapeFirst g.runOptions Options.readings := by
  have hreading := Options.reading_ofOptions g.target g.runOptions
  rw [← hreading.eq_unsuitable_iff, ← result_processOptions h]
  rw [← result_processOptions h] at hreading
  constructor
  · rintro (⟨s, hs, -⟩ | ⟨fault, hf⟩) hu
    · rw [hs] at hu
      cases hu
    · rw [hf] at hu
      cases hu
  · intro hne
    rcases hreading.ends with hok | hconfig | hu
    · exact .inl hok
    · exact .inr hconfig
    · exact absurd hu hne

/-- With workers given as a numeral and a flag as a word, options are classified; with an integer of
too many digits for a name they are not. -/
theorem classifiesOptions_iff_words :
    (ofTarget .spring [("workers", .str " 3 "), ("interfaceOnly", .str "Yes")]).phase = .created
      ∧ (ofTarget .spring [("workers", .str " 3 "), ("interfaceOnly", .str "Yes")]).ClassifiesOptions
      ∧ (ofTarget .spring [("baseName", .int (Nat.pow 10 Numeral.maxDigits))]).phase = .created
      ∧ ¬(ofTarget .spring [("baseName", .int (Nat.pow 10 Numeral.maxDigits))]).ClassifiesOptions := by
  refine ⟨rfl, (classifiesOptions_iff (.inl rfl)).mpr ?_, rfl,
    fun h => (classifiesOptions_iff (.inl rfl)).mp h ?_⟩
  · exact Options.not_escapeFirst_of_accepts (by decide)
  · have hlong : ¬(Value.int (Nat.pow 10 Numeral.maxDigits)).isWritable = true := by
      rw [Value.isWritable_int, Int.natAbs_natCast]
      exact Nat.lt_irrefl _
    exact ⟨[("interfaceOnly", .flag)], "baseName", .text, _, rfl, by decide, hlong,
      .inl (Bool.eq_false_iff.mpr hlong)⟩

/-- Infinitely many workers are neither counted nor refused. -/
theorem not_classifiesOptions_endless :
    ¬(ofTarget .spring [("workers", .float (.infinite false))]).ClassifiesOptions := by
  have hresult : (ofTarget .spring [("workers", .float (.infinite false))]).processOptions.result
      = .error .unsuitable := by
    rfl
  rintro (⟨s, hs, -⟩ | ⟨fault, hf⟩)
  · rw [hresult] at hs
    cases hs
  · rw [hresult] at hf
    cases hf

end Generator

end ApiScaffold
