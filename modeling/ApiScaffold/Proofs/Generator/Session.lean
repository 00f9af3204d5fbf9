import ApiScaffold.Proofs.Run.Stages
import ApiScaffold.Proofs.Spec
import Mathlib.Data.List.Induction

/-!
# The life cycle under any calls

A generator and the document that it is used on, under calls in any order, legal or not
(`Session.after`).

* Single steps: a call that the present phase does not allow has no other effect than its failure
  (`call_of_not_allowed`), and one that it allows succeeds, but for options that are refused.
* Whole histories: `settings_after_ne_none` and `supportingFiles_after` say of any list of calls
  which settings and files there are, by induction on the calls from the last.
* `frozen`: from the normal form of a document on, settings and files stay until the generator is
  reset.
* `isSettled_iff`: all that a caller expects of a failure holds exactly if it is not the first
  processing of options that has failed. Options that are refused move a new generator all the same,
  which is then configured without settings.
-/

namespace ApiScaffold

/-- What can be asked of a generator and the document that it is used on. -/
inductive Call where
  | set (option : String) (value : Value)
  | unset (option : String)
  /-- Goes on with another document. -/
  | turnTo (document : Spec)
  | processOptions
  | settings
  | preprocess
  | startBuilding
  | finishRendering
  | reset

/-- A generator with the document that it is used on. -/
structure Session where
  generator : Generator
  document : Spec

/-- Whether a generator is in a state that allows a call. -/
def Call.Allowed (g : Generator) : Call → Prop
  | processOptions => g.phase = .created ∨ g.phase = .configured
  | settings => g.settings? ≠ none
  | preprocess => g.phase = .configured
  | startBuilding => g.phase = .preprocessed
  | finishRendering => g.phase = .building
  | _ => True

/-! ## Single steps -/

namespace Generator

variable {g : Generator}

theorem advance_of_not_mem {allowed : List Phase} {wanted : Phase} (h : g.phase ∉ allowed) :
    ∃ fault, g.advance allowed wanted = .error (.config fault) :=
  ⟨_, by rw [advance, if_neg (by simpa using h)]⟩

theorem processOptions_of_not_allowed (h : ¬Call.processOptions.Allowed g) :
    ∃ fault, g.processOptions.generator = g
      ∧ g.processOptions.result = .error (.config fault) := by
  obtain ⟨fault, ha⟩ := @advance_of_not_mem g [.created, .configured] .configured
    (by simpa [Call.Allowed] using h)
  exact ⟨fault, by simp only [processOptions, ha], by simp only [processOptions, ha]⟩

/-- Options that are refused, in a phase in which they can be processed, leave nothing but the
phase. -/
theorem processOptions_of_allowed (h : Call.processOptions.Allowed g) {failure : Failure}
    (hf : g.processOptions.result = .error failure) :
    g.processOptions.generator = { g with phase := .configured } := by
  have ha : g.advance [.created, .configured] .configured
      = .ok { g with phase := .configured } :=
    advance_eq_ok.mpr ⟨by simpa [Call.Allowed] using h, rfl⟩
  simp only [processOptions, ha] at hf ⊢
  cases hs : Settings.ofOptions g.target ((Options.defaultsOf g.target).merge g.options) with
  | error _ => rfl
  | ok _ =>
      rw [hs] at hf
      cases hf

/-- A failure to process options leaves all but the phase as it was, and that too unless the
generator is new. -/
theorem processOptions_error {failure : Failure} (h : g.processOptions.result = .error failure) :
    g.processOptions.generator = g
      ∨ (g.phase = .created ∧ g.processOptions.generator = { g with phase := .configured }) := by
  by_cases ha : Call.processOptions.Allowed g
  · have hg := processOptions_of_allowed ha h
    rcases ha with hp | hp
    · exact .inr ⟨hp, hg⟩
    · refine .inl (hg.trans ?_)
      rw [← hp]
  · obtain ⟨_, hg, -⟩ := processOptions_of_not_allowed ha
    exact .inl hg

theorem phase_processOptions (h : Call.processOptions.Allowed g) :
    g.processOptions.generator.phase = .configured := by
  cases hr : g.processOptions.result with
  | error failure => rw [processOptions_of_allowed h hr]
  | ok settings => rw [(processOptions_ok hr).2]

theorem preprocess_of_not_configured {document : Spec} (h : g.phase ≠ .configured) :
    ∃ fault, (g.preprocess document).generator = g
      ∧ (g.preprocess document).result = .error (.config fault) := by
  obtain ⟨fault, ha⟩ := @advance_of_not_mem g [.configured] .preprocessed (by simpa using h)
  exact ⟨fault, by simp only [preprocess, ha], by simp only [preprocess, ha]⟩

theorem startBuilding_of_not_preprocessed (h : g.phase ≠ .preprocessed) :
    ∃ fault, g.startBuilding = { generator := g, result := .error (.config fault) } := by
  obtain ⟨target, options, phase, settings?, files⟩ := g
  cases phase with
  | preprocessed => exact absurd rfl h
  | _ => exact ⟨_, rfl⟩

theorem finishRendering_of_not_building (h : g.phase ≠ .building) :
    ∃ fault, g.finishRendering = { generator := g, result := .error (.config fault) } := by
  obtain ⟨target, options, phase, settings?, files⟩ := g
  cases phase with
  | building => exact absurd rfl h
  | _ => exact ⟨_, rfl⟩

end Generator

namespace Session

/-- A new generator with a document. -/
def new (t : Target) (options : Options) (document : Spec) : Session :=
  { generator := .ofTarget t options, document }

/-- What a call leaves behind, and what it answers: settings, if it gives any. -/
def call (s : Session) : Call → Session × Attempt (Option Settings)
  | .set option value =>
    ({ s with generator.options := s.generator.options.set option value }, .ok none)
  | .unset option =>
    ({ s with generator.options := s.generator.options.unset option }, .ok none)
  | .turnTo document => ({ s with document }, .ok none)
  | .processOptions =>
    let step := s.generator.processOptions
    ({ s with generator := step.generator }, some <$> step.result)
  | .settings => (s, some <$> s.generator.settings)
  | .preprocess =>
    let step := s.generator.preprocess s.document
    match step.result with
    | .ok document => ({ generator := step.generator, document }, .ok none)
    | .error failure => ({ s with generator := step.generator }, .error failure)
  | .startBuilding =>
    let step := s.generator.startBuilding
    ({ s with generator := step.generator }, (fun _ => none) <$> step.result)
  | .finishRendering =>
    let step := s.generator.finishRendering
    ({ s with generator := step.generator }, (fun _ => none) <$> step.result)
  | .reset => ({ s with generator := s.generator.reset }, .ok none)

/-- What calls in order leave behind, whether or not they fail. -/
def after (s : Session) (calls : List Call) : Session :=
  calls.foldl (fun s c => (s.call c).1) s

variable {s : Session} {c : Call} {calls : List Call}

@[simp] theorem after_nil : s.after [] = s := rfl

theorem after_cons : s.after (c :: calls) = (s.call c).1.after calls := rfl

theorem after_append (before calls : List Call) :
    s.after (before ++ calls) = (s.after before).after calls :=
  List.foldl_append

theorem after_concat : s.after (calls ++ [c]) = ((s.after calls).call c).1 := by
  rw [after_append]
  rfl

/-- A call that the present state does not allow has no other effect than its failure. -/
theorem call_of_not_allowed (h : ¬c.Allowed s.generator) :
    ∃ fault, s.call c = (s, .error (.config fault)) := by
  cases c with
  | processOptions =>
      obtain ⟨fault, hg, hr⟩ := Generator.processOptions_of_not_allowed h
      exact ⟨fault, by simp only [call, hg, hr]; rfl⟩
  | settings =>
      have hnone : s.generator.settings? = none := by simpa [Call.Allowed] using h
      exact ⟨_, by simp only [call, Generator.settings, hnone]; rfl⟩
  | preprocess =>
      obtain ⟨fault, hg, hr⟩ :=
        @Generator.preprocess_of_not_configured s.generator s.document h
      exact ⟨fault, by simp only [call, hg, hr]⟩
  | startBuilding =>
      obtain ⟨fault, hs⟩ := Generator.startBuilding_of_not_preprocessed h
      exact ⟨fault, by simp only [call, hs]; rfl⟩
  | finishRendering =>
      obtain ⟨fault, hs⟩ := Generator.finishRendering_of_not_building h
      exact ⟨fault, by simp only [call, hs]; rfl⟩
  | _ => exact absurd trivial h

/-- A call that the present state allows succeeds, but for options that are refused. -/
theorem call_of_allowed (h : c.Allowed s.generator) (hc : c ≠ .processOptions) :
    ∃ answer, (s.call c).2 = .ok answer := by
  cases c with
  | processOptions => exact absurd rfl hc
  | settings =>
      obtain ⟨settings, hs⟩ := Option.ne_none_iff_exists'.mp h
      exact ⟨some settings, by simp only [call, Generator.settings, hs]; rfl⟩
  | preprocess => exact ⟨none, by simp only [call, Generator.preprocess_of_configured h]⟩
  | startBuilding =>
      exact ⟨none, by simp only [call, Generator.startBuilding_of_preprocessed h]; rfl⟩
  | finishRendering =>
      exact ⟨none, by simp only [call, Generator.finishRendering_of_building h]; rfl⟩
  | _ => exact ⟨none, rfl⟩

/-- Only the processing of options and a reset touch what is settled. -/
theorem settled_call (hp : c ≠ .processOptions) (hr : c ≠ .reset) :
    (s.call c).1.generator.settings? = s.generator.settings?
      ∧ (s.call c).1.generator.supportingFiles = s.generator.supportingFiles := by
  by_cases ha : c.Allowed s.generator
  · cases c with
    | processOptions => exact absurd rfl hp
    | reset => exact absurd rfl hr
    | preprocess => simp only [call, Generator.preprocess_of_configured ha, and_self]
    | startBuilding => simp only [call, Generator.startBuilding_of_preprocessed ha, and_self]
    | finishRendering => simp only [call, Generator.finishRendering_of_building ha, and_self]
    | _ => exact ⟨rfl, rfl⟩
  · obtain ⟨_, hs⟩ := call_of_not_allowed ha
    rw [hs]
    exact ⟨rfl, rfl⟩

theorem target_call : (s.call c).1.generator.target = s.generator.target := by
  by_cases ha : c.Allowed s.generator
  · cases c with
    | processOptions =>
        cases hr : s.generator.processOptions.result with
        | error failure =>
            rcases Generator.processOptions_error hr with hg | ⟨-, hg⟩ <;> simp only [call, hg]
        | ok settings => simp only [call, (Generator.processOptions_ok hr).2]
    | preprocess => simp only [call, Generator.preprocess_of_configured ha]
    | startBuilding => simp only [call, Generator.startBuilding_of_preprocessed ha]
    | finishRendering => simp only [call, Generator.finishRendering_of_building ha]
    | _ => rfl
  · obtain ⟨_, hs⟩ := call_of_not_allowed ha
    rw [hs]

/-- The first try to process options ends the first phase, with or without success, and only a reset
brings it back. -/
theorem phase_call_ne_created (hr : c ≠ .reset) :
    (s.call c).1.generator.phase ≠ .created
      ↔ c = .processOptions ∨ s.generator.phase ≠ .created := by
  by_cases ha : c.Allowed s.generator
  · cases c with
    | reset => exact absurd rfl hr
    | processOptions => simp [call, Generator.phase_processOptions ha]
    | preprocess =>
        have hp : s.generator.phase = .configured := ha
        simp [call, Generator.preprocess_of_configured hp, hp]
    | startBuilding =>
        have hp : s.generator.phase = .preprocessed := ha
        simp [call, Generator.startBuilding_of_preprocessed hp, hp]
    | finishRendering =>
        have hp : s.generator.phase = .building := ha
        simp [call, Generator.finishRendering_of_building hp, hp]
    | _ => simp [call]
  · obtain ⟨_, hs⟩ := call_of_not_allowed ha
    rw [hs]
    refine (or_iff_right_of_imp ?_).symm
    rintro rfl hp
    exact ha (.inl hp)

/-- A phase after the configuration. -/
def IsClosed (s : Session) : Prop :=
  s.generator.phase ≠ .created ∧ s.generator.phase ≠ .configured

/-- After the configuration a call other than a reset touches neither settings nor files, and does
not lead back. -/
theorem IsClosed.call (h : s.IsClosed) (hr : c ≠ .reset) : (s.call c).1.IsClosed
    ∧ (s.call c).1.generator.settings? = s.generator.settings?
    ∧ (s.call c).1.generator.supportingFiles = s.generator.supportingFiles := by
  by_cases ha : c.Allowed s.generator
  · have hp : c ≠ .processOptions := by
      rintro rfl
      exact ha.elim h.1 h.2
    refine ⟨⟨(phase_call_ne_created hr).mpr (.inr h.1), ?_⟩, settled_call hp hr⟩
    cases c with
    | processOptions => exact absurd rfl hp
    | reset => exact absurd rfl hr
    | preprocess => exact absurd ha h.2
    | startBuilding => simp [Session.call, Generator.startBuilding_of_preprocessed ha]
    | finishRendering => simp [Session.call, Generator.finishRendering_of_building ha]
    | _ => exact h.2
  · obtain ⟨_, hs⟩ := call_of_not_allowed ha
    rw [hs]
    exact ⟨h, rfl, rfl⟩

/-! ## Any number of steps -/

/-- Since the last reset there was a try to process options, with a property of the calls before it.
-/
def TriedWith (P : List Call → Prop) (calls : List Call) : Prop :=
  ∃ before later, calls = before ++ .processOptions :: later ∧ .reset ∉ later ∧ P before

/-- There was a try to process options since the last reset. -/
def Tried (calls : List Call) : Prop := TriedWith (fun _ => True) calls

/-- A try to process options since the last reset has succeeded. -/
def Processed (s : Session) (calls : List Call) : Prop :=
  TriedWith (fun before =>
    ∃ settings, (s.after before).generator.processOptions.result = .ok settings) calls

theorem triedWith_nil {P : List Call → Prop} : ¬TriedWith P [] := by
  rintro ⟨before, later, hc, -⟩
  simp at hc

theorem triedWith_concat {P : List Call → Prop} : TriedWith P (calls ++ [c])
    ↔ (c = .processOptions ∧ P calls) ∨ (c ≠ .reset ∧ TriedWith P calls) := by
  constructor
  · rintro ⟨before, later, hc, hr, hP⟩
    rcases List.eq_nil_or_concat' later with rfl | ⟨rest, last, rfl⟩
    · obtain ⟨rfl, hlast⟩ := List.append_inj' hc rfl
      exact .inl ⟨List.singleton_inj.mp hlast, hP⟩
    · rw [← List.cons_append, ← List.append_assoc] at hc
      obtain ⟨rfl, hlast⟩ := List.append_inj' hc rfl
      rw [List.singleton_inj] at hlast
      subst hlast
      simp only [List.mem_append, List.mem_singleton, not_or] at hr
      exact .inr ⟨Ne.symm hr.2, before, rest, rfl, hr.1, hP⟩
  · rintro (⟨rfl, hP⟩ | ⟨hr, before, later, rfl, hl, hP⟩)
    · exact ⟨calls, [], rfl, List.not_mem_nil, hP⟩
    · refine ⟨before, later ++ [c], by simp, ?_, hP⟩
      simp [hl, Ne.symm hr]

theorem Processed.tried (h : s.Processed calls) : Tried calls := by
  obtain ⟨before, later, hc, hr, -⟩ := h
  exact ⟨before, later, hc, hr, trivial⟩

section

variable {t : Target} {options : Options} {document : Spec}

theorem target_after : (s.after calls).generator.target = s.generator.target := by
  induction calls using List.reverseRecOn with
  | nil => rfl
  | append_singleton calls c ih => rw [after_concat, target_call, ih]

/-- A generator has left the first phase exactly if the processing of options was tried. -/
theorem phase_after_ne_created :
    ((new t options document).after calls).generator.phase ≠ .created ↔ Tried calls := by
  induction calls using List.reverseRecOn with
  | nil => exact iff_of_false (fun h => h rfl) triedWith_nil
  | append_singleton calls c ih =>
      rw [after_concat, Tried, triedWith_concat, and_true]
      by_cases hr : c = .reset
      · subst hr
        exact iff_of_false (fun h => h rfl) (by simp)
      · rw [phase_call_ne_created hr, ih, Tried]
        simp only [ne_eq, hr, not_false_eq_true, true_and]

theorem phase_after_of_not_tried (h : ¬Tried calls) :
    ((new t options document).after calls).generator.phase = .created := by
  by_contra hp
  exact h (phase_after_ne_created.mp hp)

/-- A generator has settings exactly if the processing of options has succeeded. -/
theorem settings_after_ne_none :
    ((new t options document).after calls).generator.settings? ≠ none
      ↔ (new t options document).Processed calls := by
  induction calls using List.reverseRecOn with
  | nil => exact iff_of_false (fun h => h rfl) triedWith_nil
  | append_singleton calls c ih =>
      rw [after_concat, Processed, triedWith_concat]
      by_cases hr : c = .reset
      · subst hr
        exact iff_of_false (fun h => h rfl) (by simp)
      by_cases hp : c = .processOptions
      · subst hp
        simp only [true_and, ne_eq, hr, not_false_eq_true]
        cases hresult : ((new t options document).after calls).generator.processOptions.result with
        | ok settings => simp [call, (Generator.processOptions_ok hresult).2]
        | error failure =>
            -- what a failure leaves has settings if there were some
            have hkept : (((new t options document).after calls).call
                .processOptions).1.generator.settings?
                  = ((new t options document).after calls).generator.settings? := by
              rcases Generator.processOptions_error hresult with hg | ⟨-, hg⟩ <;>
                simp only [call, hg]
            rw [hkept, ← ne_eq, ih]
            simp [Processed]
      · rw [(settled_call hp hr).1, ih]
        simp [Processed, hp, hr]

/-- The supporting files are those of the settings, and there are none without settings. -/
theorem supportingFiles_after :
    ((new t options document).after calls).generator.supportingFiles
      = match ((new t options document).after calls).generator.settings? with
        | none => []
        | some settings => settings.supportingFiles t := by
  induction calls using List.reverseRecOn with
  | nil => rfl
  | append_singleton calls c ih =>
      rw [after_concat]
      by_cases hr : c = .reset
      · subst hr
        rfl
      by_cases hp : c = .processOptions
      · subst hp
        cases hresult : ((new t options document).after calls).generator.processOptions.result with
        | ok settings =>
            simp only [call, (Generator.processOptions_ok hresult).2, target_after]
            rfl
        | error failure =>
            rcases Generator.processOptions_error hresult with hg | ⟨-, hg⟩ <;>
              simp only [call, hg, ih]
      · obtain ⟨hs, hf⟩ := @settled_call ((new t options document).after calls) c hp hr
        rw [hs, hf, ih]

end

/-- After the configuration neither settings nor files change until a reset. -/
theorem IsClosed.after (h : s.IsClosed) (hr : .reset ∉ calls) :
    (s.after calls).generator.settings? = s.generator.settings?
      ∧ (s.after calls).generator.supportingFiles = s.generator.supportingFiles := by
  induction calls generalizing s with
  | nil => exact ⟨rfl, rfl⟩
  | cons c calls ih =>
      rw [List.mem_cons, not_or] at hr
      obtain ⟨hclosed, hs, hf⟩ := h.call (Ne.symm hr.1)
      obtain ⟨hs', hf'⟩ := ih hclosed hr.2
      exact ⟨hs'.trans hs, hf'.trans hf⟩

/-! ## What a caller relies on -/

/-- Whatever is asked of a new generator, and in whatever order: what its state does not allow fails
and changes nothing, and what it allows succeeds, but for options that are refused; the supporting
files are those of the settings; and once a document is in its normal form, settings and files stay
until a reset. -/
theorem frozen (t : Target) (options : Options) (document : Spec) (calls : List Call) :
    (∀ c, ¬c.Allowed ((new t options document).after calls).generator → ∃ fault,
      ((new t options document).after calls).call c
        = ((new t options document).after calls, .error (.config fault)))
    ∧ (∀ c, c.Allowed ((new t options document).after calls).generator → c ≠ .processOptions →
      ∃ answer, (((new t options document).after calls).call c).2 = .ok answer)
    ∧ ((new t options document).after calls).generator.supportingFiles
      = (match ((new t options document).after calls).generator.settings? with
        | none => []
        | some settings => settings.supportingFiles t)
    ∧ ∀ before later answer, calls = before ++ .preprocess :: later → .reset ∉ later →
        (((new t options document).after before).call .preprocess).2 = .ok answer →
        ((new t options document).after calls).generator.settings?
            = ((new t options document).after before).generator.settings?
          ∧ ((new t options document).after calls).generator.supportingFiles
            = ((new t options document).after before).generator.supportingFiles := by
  refine ⟨fun c hc => call_of_not_allowed hc, fun c hc => call_of_allowed hc,
    supportingFiles_after, ?_⟩
  rintro before later answer rfl hr hok
  have hallowed : Call.preprocess.Allowed ((new t options document).after before).generator := by
    by_contra hno
    obtain ⟨fault, hs⟩ := call_of_not_allowed hno
    rw [hs] at hok
    cases hok
  rw [after_append, after_cons]
  obtain ⟨hs, hf⟩ := @settled_call ((new t options document).after before) .preprocess
    (by simp) (by simp)
  have hclosed : (((new t options document).after before).call .preprocess).1.IsClosed := by
    simp [call, Generator.preprocess_of_configured hallowed, IsClosed]
  obtain ⟨hs', hf'⟩ := hclosed.after hr
  exact ⟨hs'.trans hs, hf'.trans hf⟩

/-- While a generator builds, options can be changed and not processed, and building does not start
again; the files are those of the settings that it had. -/
theorem frozen_building : ∃ fault,
    (((new .spring [] .bare).after [.processOptions, .preprocess, .startBuilding,
        .set "interfaceOnly" (.bool true)]).call .processOptions).2 = .error (.config fault)
    ∧ (∃ answer, (((new .spring [] .bare).after [.processOptions, .preprocess, .startBuilding,
        .set "interfaceOnly" (.bool true)]).call .finishRendering).2 = .ok answer)
    ∧ ((new .spring [] .bare).after [.processOptions, .preprocess, .startBuilding,
        .set "interfaceOnly" (.bool true)]).generator.supportingFiles
      = ((new .spring [] .bare).after [.processOptions]).generator.supportingFiles := by
  obtain ⟨hrefused, hallowed, -, hstays⟩ := frozen .spring [] .bare [.processOptions, .preprocess,
    .startBuilding, .set "interfaceOnly" (.bool true)]
  have hbuilding : ((new .spring [] .bare).after [.processOptions, .preprocess, .startBuilding,
      .set "interfaceOnly" (.bool true)]).generator.phase = .building := rfl
  obtain ⟨fault, hs⟩ := hrefused .processOptions (by simp [Call.Allowed, hbuilding])
  refine ⟨fault, by rw [hs], hallowed .finishRendering hbuilding (by simp), ?_⟩
  exact (hstays [.processOptions] [.startBuilding, .set "interfaceOnly" (.bool true)] none rfl
    (by simp) rfl).2

/-- What a caller expects of a generator after calls: a failure to process options changes nothing,
a generator that has left the first phase has settings, and a document is brought into its normal
form only where the processing of options has succeeded. -/
structure IsSettled (s : Session) (calls : List Call) : Prop where
  atomic : ∀ failure, (s.after calls).generator.processOptions.result = .error failure →
    (s.after calls).generator.processOptions.generator = (s.after calls).generator
  configured : (s.after calls).generator.phase ≠ .created →
    ∃ settings, (s.after calls).generator.settings = .ok settings
  prepared : ∀ answer, ((s.after calls).call .preprocess).2 = .ok answer → s.Processed calls

theorem settings_eq_ok {g : Generator} :
    (∃ settings, g.settings = .ok settings) ↔ g.settings? ≠ none := by
  unfold Generator.settings
  cases g.settings? <;> simp

/-- A failure to process options never touches settings and supporting files. All that a caller
expects of a new generator after calls holds exactly if the processing of options has succeeded
since the last reset, or was not tried and would succeed now. -/
theorem isSettled_iff (t : Target) (options : Options) (document : Spec) (calls : List Call) :
    (∀ failure, ((new t options document).after calls).generator.processOptions.result
        = .error failure →
      ((new t options document).after calls).generator.processOptions.generator.settings?
          = ((new t options document).after calls).generator.settings?
        ∧ ((new t options document).after calls).generator.processOptions.generator.supportingFiles
          = ((new t options document).after calls).generator.supportingFiles)
    ∧ ((new t options document).IsSettled calls ↔
      (new t options document).Processed calls
        ∨ (¬Tried calls ∧ ∃ settings,
          ((new t options document).after calls).generator.processOptions.result
            = .ok settings)) := by
  constructor
  · intro failure hf
    rcases Generator.processOptions_error hf with hg | ⟨-, hg⟩ <;> rw [hg] <;> exact ⟨rfl, rfl⟩
  · constructor
    · intro h
      by_cases htried : Tried calls
      · left
        rw [← settings_after_ne_none, ← settings_eq_ok]
        exact h.configured (phase_after_ne_created.mpr htried)
      · refine .inr ⟨htried, ?_⟩
        have hcreated := @phase_after_of_not_tried calls t options document htried
        cases hr : ((new t options document).after calls).generator.processOptions.result with
        | ok settings => exact ⟨settings, rfl⟩
        | error failure =>
            -- a refusal would have moved the new generator
            have hmoved := Generator.phase_processOptions (.inl hcreated)
            rw [h.atomic failure hr, hcreated] at hmoved
            cases hmoved
    · rintro (hprocessed | ⟨htried, settings, hok⟩)
      · have hleft : ((new t options document).after calls).generator.phase ≠ .created :=
          phase_after_ne_created.mpr hprocessed.tried
        refine ⟨fun failure hf => ?_, fun _ => ?_, fun _ _ => hprocessed⟩
        · rcases Generator.processOptions_error hf with hg | ⟨hp, -⟩
          · exact hg
          · exact absurd hp hleft
        · exact settings_eq_ok.mpr (settings_after_ne_none.mpr hprocessed)
      · have hcreated : ((new t options document).after calls).generator.phase = .created := by
          by_contra hp
          exact htried (phase_after_ne_created.mp hp)
        refine ⟨fun failure hf => ?_, fun hp => absurd hcreated hp, fun answer ha => ?_⟩
        · rw [hok] at hf
          cases hf
        · obtain ⟨fault, hs⟩ := @call_of_not_allowed ((new t options document).after calls)
            .preprocess (by simp [Call.Allowed, hcreated])
          rw [hs] at ha
          cases ha

/-- An option that cannot be read. -/
def hesitant : Options := [("interfaceOnly", .str "maybe")]

/-- After settings were made, an option that cannot be read changes nothing. -/
theorem isSettled_iff_hesitant_later : ∃ failure,
    ((new .jaxrsSpec [] .bare).after
        [.processOptions, .set "interfaceOnly" (.str "maybe")]).generator.processOptions.result
      = .error failure
    ∧ ((new .jaxrsSpec [] .bare).after [.processOptions,
        .set "interfaceOnly" (.str "maybe")]).generator.processOptions.generator.settings?
      = ((new .jaxrsSpec [] .bare).after
        [.processOptions, .set "interfaceOnly" (.str "maybe")]).generator.settings?
    ∧ (new .jaxrsSpec [] .bare).IsSettled
        [.processOptions, .set "interfaceOnly" (.str "maybe")] := by
  obtain ⟨hkeeps, hiff⟩ := isSettled_iff .jaxrsSpec [] .bare
    [.processOptions, .set "interfaceOnly" (.str "maybe")]
  refine ⟨.config (.expectsBoolean "interfaceOnly" (.str "maybe")), rfl, (hkeeps _ rfl).1,
    hiff.mpr (.inl ?_)⟩
  exact ⟨[], [.set "interfaceOnly" (.str "maybe")], rfl, by simp, _, rfl⟩

/-- A new generator whose options are refused is configured, has no settings, and brings a document
into its normal form all the same. -/
theorem isSettled_fails_hesitant :
    ¬(new .jaxrsSpec hesitant .bare).IsSettled []
    ∧ ((new .jaxrsSpec hesitant .bare).after [.processOptions]).generator.phase = .configured
    ∧ ((new .jaxrsSpec hesitant .bare).after [.processOptions]).generator.settings
      = .error (.config (.notConfigured "jaxrs-spec"))
    ∧ (((new .jaxrsSpec hesitant .bare).after [.processOptions]).call .preprocess).2 = .ok none
    ∧ ¬(new .jaxrsSpec hesitant .bare).Processed [.processOptions] := by
  refine ⟨fun h => ?_, rfl, rfl, rfl, fun h => settings_after_ne_none.mpr h rfl⟩
  have hsame := congrArg Generator.phase (h.atomic _ rfl)
  cases hsame

end Session

end ApiScaffold
