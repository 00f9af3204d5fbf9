import ApiScaffold.Number.Numeral
import ApiScaffold.Proofs.Attempt

/-!
# Where comments end

A language reads the characters of a comment as they stand, takes them for what they mean, and stops
behind the first closing among these. In Java a backslash may open an escape with a unit, and what
the unit means may close a comment; in Python a docstring is a literal, in which a backslash takes
the next character with it.

* `CommentRules`: how a language reads comments, one character after the other. `behind` is what
  stands behind the comment that characters start with.
* `Keeps`: a text stays inside the comment that is closed behind it, which it does exactly if it
  means something and what it means passes: it holds no closing, and it leaves none open.
* `keeps_java_iff` and `keeps_python_iff` say what that comes to in the two languages.
* `IsBreak`: a text between two others keeps them apart, so that a comment of several lines stays
  inside exactly if each line does.
* `allClosed_iff`: every comment of a file ends behind its own closing exactly if its texts stay
  inside.
-/

namespace ApiScaffold

/-- What the reader of a comment is in the middle of. -/
inductive Pending where
  | nothing
  /-- Behind a backslash. -/
  | slash
  /-- Behind a backslash and the letters that open an escape with a unit. -/
  | marks
  /-- In a unit, of which one digit and `more` are to follow. -/
  | digits (more unit : Nat)

/-- How a language reads comments. -/
structure CommentRules where
  opening : String
  closing : String
  /-- What is meant by a character that stands behind others. -/
  step : Pending → Char → Option (List Char × Pending)
  /-- What is meant by the end of a text. -/
  finish : Pending → Option (List Char)
  /-- How much of a closing has been seen with one more character meant, which may complete it. -/
  scan : Nat → Char → Option Nat
  /-- Whether a closing can start behind what has been seen. -/
  isClear : Nat → Bool

namespace CommentRules

/-- What stands behind the comment of which characters are the rest. -/
def behindFrom (r : CommentRules) : Pending → Nat → List Char → Option (List Char)
  | _, _, [] => none
  | pending, seen, c :: cs =>
    match r.step pending c with
    | none => none
    | some (meant, next) => match meant.foldlM r.scan seen with
      | none => some cs
      | some seen => r.behindFrom next seen cs

/-- What stands behind the comment that characters start with, its opening left out. -/
def behind (r : CommentRules) : List Char → Option (List Char) := r.behindFrom .nothing 0

/-- The characters that a text means, if it is not malformed. -/
def meaning? (r : CommentRules) : Pending → List Char → Option (List Char)
  | pending, [] => r.finish pending
  | pending, c :: cs => do
    let (meant, next) ← r.step pending c
    return meant ++ (← r.meaning? next cs)

/-- Characters that are meant behind others hold no closing, and leave none open. -/
def Passes (r : CommentRules) (seen : Nat) (meant : List Char) : Prop :=
  ∃ last, meant.foldlM r.scan seen = some last ∧ r.isClear last = true

/-- A text stays inside a comment that is closed behind it. -/
def Keeps (r : CommentRules) (s : String) : Prop :=
  ∃ meant, r.meaning? .nothing s.toList = some meant ∧ r.Passes 0 meant

/-- A closing closes what stands in front of it, unless that has no meaning or leaves a closing
open. -/
structure IsLawful (r : CommentRules) : Prop where
  closes : ∀ pending seen rest, r.behindFrom pending seen (r.closing.toList ++ rest) = some rest
    ↔ ∃ meant, r.finish pending = some meant ∧ r.Passes seen meant
  nonempty : r.closing.toList ≠ []

variable {r : CommentRules} {pending next : Pending} {seen : Nat} {c : Char}
  {cs ds meant rest : List Char} {s t : String}

/-! ## Comments of a text -/

/-- A comment takes some character at least. -/
theorem length_lt_of_behindFrom (h : r.behindFrom pending seen cs = some rest) :
    rest.length < cs.length := by
  induction cs generalizing pending seen with
  | nil => cases h
  | cons c cs ih =>
      rw [behindFrom] at h
      split at h
      next => cases h
      next =>
        split at h
        next =>
          cases h
          exact Nat.lt_succ_self _
        next => exact Nat.lt_succ_of_lt (ih h)

theorem behindFrom_ne_some (h : cs.length ≤ rest.length) :
    r.behindFrom pending seen cs ≠ some rest :=
  fun hb => absurd (length_lt_of_behindFrom hb) (Nat.not_lt.mpr h)

theorem passes_append {more : List Char} :
    r.Passes seen (meant ++ more)
      ↔ ∃ between, meant.foldlM r.scan seen = some between ∧ r.Passes between more := by
  simp only [Passes, List.foldlM_append, Option.bind_eq_bind, Option.bind_eq_some_iff]
  constructor
  · rintro ⟨last, ⟨between, hb, hl⟩, hc⟩
    exact ⟨between, hb, last, hl, hc⟩
  · rintro ⟨between, hb, last, hl, hc⟩
    exact ⟨last, ⟨between, hb, hl⟩, hc⟩

theorem passes_cons :
    r.Passes seen (c :: cs) ↔ ∃ between, r.scan seen c = some between ∧ r.Passes between cs := by
  have hsingle : [c].foldlM r.scan seen = r.scan seen c := by
    cases h : r.scan seen c <;> simp [h]
  rw [← List.singleton_append, passes_append, hsingle]

theorem meaning?_cons {all : List Char} :
    r.meaning? pending (c :: cs) = some all ↔ ∃ meant next, r.step pending c = some (meant, next)
      ∧ ∃ more, r.meaning? next cs = some more ∧ meant ++ more = all := by
  simp only [meaning?, Option.bind_eq_bind, Option.bind_eq_some_iff, Option.pure_def,
    Option.some.injEq, Prod.exists]

/-- A comment ends at the closing behind a text exactly if the text has a meaning that passes. -/
theorem IsLawful.behindFrom_eq_iff (h : r.IsLawful) :
    r.behindFrom pending seen (cs ++ (r.closing.toList ++ rest)) = some rest
      ↔ ∃ meant, r.meaning? pending cs = some meant ∧ r.Passes seen meant := by
  induction cs generalizing pending seen with
  | nil => exact h.closes pending seen rest
  | cons c cs ih =>
      simp only [List.cons_append, behindFrom, meaning?_cons]
      cases hstep : r.step pending c with
      | none => simp
      | some read =>
          obtain ⟨first, next⟩ := read
          have hread : (∃ all, (∃ meant after, some (first, next) = some (meant, after)
                ∧ ∃ more, r.meaning? after cs = some more ∧ meant ++ more = all) ∧ r.Passes seen all)
              ↔ ∃ more, r.meaning? next cs = some more ∧ ∃ between,
                first.foldlM r.scan seen = some between ∧ r.Passes between more := by
            simp only [← passes_append]
            constructor
            · rintro ⟨_, ⟨_, _, ⟨⟩, more, hmore, rfl⟩, hp⟩
              exact ⟨more, hmore, hp⟩
            · rintro ⟨more, hmore, hp⟩
              exact ⟨_, ⟨_, _, rfl, more, hmore, rfl⟩, hp⟩
          rw [hread]
          dsimp only
          cases hscan : first.foldlM r.scan seen with
          | none =>
              -- the comment ends here, and its closing is still to come
              have hpos : 0 < r.closing.toList.length := List.length_pos_iff.mpr h.nonempty
              refine iff_of_false (fun heq => ?_) ?_
              · have hlength := congrArg List.length (Option.some.inj heq)
                simp only [List.length_append] at hlength
                omega
              · rintro ⟨_, -, _, hnone, -⟩
                cases hnone
          | some between => simp [ih]

/-- The comment of a text is closed behind it exactly if the text stays inside. -/
theorem IsLawful.behind_eq_iff (h : r.IsLawful) :
    r.behind (s.toList ++ (r.closing.toList ++ rest)) = some rest ↔ r.Keeps s :=
  h.behindFrom_eq_iff

/-! ## Java -/

/-- One character in Java: a backslash with a letter behind it, which may be repeated, opens an
escape with the four digits of a unit, and a pair of backslashes opens none. -/
def javaStep : Pending → Char → Option (List Char × Pending)
  | .nothing, c => if c = '\\' then some ([], .slash) else some ([c], .nothing)
  | .slash, c => if c = 'u' then some ([], .marks) else some (['\\', c], .nothing)
  | .marks, c =>
    if c = 'u' then some ([], .marks)
    else (Numeral.ofDigits? 16 [c]).map fun d => ([], .digits 2 d)
  | .digits more unit, c => (Numeral.ofDigits? 16 [c]).map fun d => match more with
    | 0 => (Text.spell (unit * 16 + d), .nothing)
    | more + 1 => ([], .digits more (unit * 16 + d))

/-- The comments of Java that may take several lines. -/
def java : CommentRules where
  opening := "/*"
  closing := "*/"
  step := javaStep
  finish
    | .nothing => some []
    | .slash => some ['\\']
    | _ => none
  scan seen c := if c = '/' ∧ seen = 1 then none else some (if c = '*' then 1 else 0)
  isClear _ := true

theorem isLawful_java : java.IsLawful where
  nonempty := by decide
  closes pending seen rest := by
    cases pending with
    | nothing => exact iff_of_true rfl ⟨[], rfl, seen, rfl, rfl⟩
    | slash => exact iff_of_true rfl ⟨['\\'], rfl, 0, rfl, rfl⟩
    | marks => exact iff_of_false (fun h => by cases h) fun ⟨_, h, _⟩ => by cases h
    | digits more unit => exact iff_of_false (fun h => by cases h) fun ⟨_, h, _⟩ => by cases h

/-- Characters pass in Java exactly if no star stands in front of a slash. -/
theorem passes_java_iff : java.Passes 0 meant ↔ ¬['*', '/'] <:+: meant := by
  have hfrom : ∀ seen, java.Passes seen meant
      ↔ ¬(seen = 1 ∧ ['/'] <+: meant) ∧ ¬['*', '/'] <:+: meant := by
    induction meant with
    | nil => exact fun seen => iff_of_true ⟨seen, rfl, rfl⟩ (by simp)
    | cons c cs ih =>
        intro seen
        rw [passes_cons, List.infix_cons_iff, List.cons_prefix_cons, List.cons_prefix_cons]
        by_cases hc : c = '/' ∧ seen = 1
        · have hscan : java.scan seen c = none := if_pos hc
          rw [hscan]
          simp [hc]
        · have hscan : java.scan seen c = some (if c = '*' then 1 else 0) := if_neg hc
          simp only [hscan, Option.some.injEq, exists_eq_left', ih]
          by_cases hstar : c = '*'
          · simp [hstar, not_or]
          · simp [hstar, Ne.symm hstar, eq_comm (a := '/'), and_comm (a := seen = 1), hc]
  rw [hfrom]
  simp

/-- A text stays inside a comment of Java exactly if its escapes are well-formed and what it means
holds no closing. -/
theorem keeps_java_iff :
    java.Keeps s ↔ ∃ meant, java.meaning? .nothing s.toList = some meant ∧ ¬['*', '/'] <:+: meant :=
  exists_congr fun _ => and_congr_right fun _ => passes_java_iff

example : java.meaning? .nothing "\\u002a\\uu002F\\\\u".toList = some "*/\\\\u".toList := by decide

/-- Whether a character neither opens an escape nor starts a closing in Java. -/
def isJavaPlain (c : Char) : Bool := c != '\\' && c != '*'

/-- A text of plain characters stays inside. -/
theorem keeps_java_of_plain (h : s.toList.all isJavaPlain = true) : java.Keeps s := by
  have hplain : ∀ c ∈ s.toList, c ≠ '\\' ∧ c ≠ '*' := fun c hc => by
    simpa [isJavaPlain] using List.all_eq_true.mp h c hc
  have hmeaning : ∀ cs : List Char, (∀ c ∈ cs, c ≠ '\\') → java.meaning? .nothing cs = some cs := by
    intro cs hcs
    induction cs with
    | nil => rfl
    | cons c cs ih =>
        rw [List.forall_mem_cons] at hcs
        exact meaning?_cons.mpr ⟨[c], .nothing, if_neg hcs.1, cs, ih hcs.2, rfl⟩
  refine keeps_java_iff.mpr ⟨s.toList, hmeaning _ fun c hc => (hplain c hc).1, fun hpart => ?_⟩
  exact (hplain '*' (hpart.subset (List.mem_cons_self ..))).2 rfl

/-! ## Breaks -/

/-- A text between two others keeps them apart: the whole stays inside exactly if both do. -/
def IsBreak (r : CommentRules) (sep : String) : Prop :=
  ∀ s t, r.Keeps (s ++ sep ++ t) ↔ r.Keeps s ∧ r.Keeps t

theorem IsBreak.around {sep mid : String} (hs : r.IsBreak sep) (hm : r.Keeps mid)
    (ht : r.IsBreak t) : r.IsBreak (sep ++ mid ++ t) := by
  intro a b
  have hsplit : a ++ (sep ++ mid ++ t) ++ b = a ++ sep ++ (mid ++ t ++ b) := by
    simp only [String.append_assoc]
  rw [hsplit, hs, ht]
  simp [hm]

/-- Texts with breaks between them stay inside exactly if each of them does. -/
theorem IsBreak.keeps_intercalate (h : r.IsBreak t) (hempty : r.Keeps "") {xs : List String} :
    r.Keeps (String.intercalate t xs) ↔ ∀ x ∈ xs, r.Keeps x := by
  induction xs with
  | nil => exact iff_of_true hempty (fun _ hx => absurd hx List.not_mem_nil)
  | cons x xs ih =>
      cases xs with
      | nil => rw [String.intercalate_singleton, List.forall_mem_singleton]
      | cons y ys => rw [String.intercalate_cons_cons, h, ih, ← List.forall_mem_cons]

/-- Characters that are no part of an escape or of a closing in Java. -/
def javaBreaks : List Char := [' ', '\n', ',']

theorem javaStep_break (h : c ∈ javaBreaks) :
    javaStep pending c = (java.finish pending).map fun tail => (tail ++ [c], .nothing) := by
  simp only [javaBreaks, List.mem_cons, List.not_mem_nil, or_false] at h
  rcases h with rfl | rfl | rfl <;> cases pending <;> rfl

theorem scan_java_break (h : c ∈ javaBreaks) : java.scan seen c = some 0 := by
  simp only [javaBreaks, List.mem_cons, List.not_mem_nil, or_false] at h
  rcases h with rfl | rfl | rfl <;> rfl

theorem meaning?_break {all : List Char} (h : c ∈ javaBreaks) :
    java.meaning? pending (cs ++ c :: ds) = some all ↔ ∃ front back,
      java.meaning? pending cs = some front ∧ java.meaning? .nothing ds = some back
        ∧ front ++ c :: back = all := by
  induction cs generalizing pending all with
  | nil =>
      rw [List.nil_append, meaning?_cons]
      show (∃ meant next, javaStep pending c = some (meant, next) ∧ _)
        ↔ ∃ front back, java.finish pending = some front ∧ _
      rw [javaStep_break h]
      cases java.finish pending <;> simp
  | cons d cs ih =>
      rw [List.cons_append]
      simp only [meaning?_cons, ih]
      constructor
      · rintro ⟨meant, next, hstep, _, ⟨front, back, hf, hb, rfl⟩, rfl⟩
        exact ⟨_, back, ⟨meant, next, hstep, front, hf, rfl⟩, hb, List.append_assoc ..⟩
      · rintro ⟨_, back, ⟨meant, next, hstep, front, hf, rfl⟩, hb, rfl⟩
        exact ⟨meant, next, hstep, _, ⟨front, back, hf, hb, rfl⟩, (List.append_assoc ..).symm⟩

theorem isBreak_java {sep : String} (hs : sep.toList = [c]) (h : c ∈ javaBreaks) :
    java.IsBreak sep := by
  intro s t
  have hpasses : ∀ front back : List Char, java.Passes 0 (front ++ c :: back)
      ↔ java.Passes 0 front ∧ java.Passes 0 back := by
    intro front back
    simp only [passes_append, passes_cons, scan_java_break h, Option.some.injEq, exists_eq_left']
    constructor
    · rintro ⟨last, hf, hb⟩
      exact ⟨⟨last, hf, rfl⟩, hb⟩
    · rintro ⟨⟨last, hf, -⟩, hb⟩
      exact ⟨last, hf, hb⟩
  simp only [Keeps, String.toList_append, hs, List.append_assoc, List.singleton_append,
    meaning?_break h]
  constructor
  · rintro ⟨_, ⟨front, back, hf, hb, rfl⟩, hp⟩
    obtain ⟨hpf, hpb⟩ := (hpasses front back).mp hp
    exact ⟨⟨front, hf, hpf⟩, ⟨back, hb, hpb⟩⟩
  · rintro ⟨⟨front, hf, hpf⟩, ⟨back, hb, hpb⟩⟩
    exact ⟨_, ⟨front, back, hf, hb, rfl⟩, (hpasses front back).mpr ⟨hpf, hpb⟩⟩

/-! ## Python -/

/-- The docstrings of Python: literals in triple quotes, in which a character behind a backslash is
no quote, and no other escape matters for where they end. -/
def python : CommentRules where
  opening := "\"\"\""
  closing := "\"\"\""
  step
    | .nothing, c => if c = '\\' then some ([], .slash) else some ([c], .nothing)
    | .slash, _ => some (['\\'], .nothing)
    | _, _ => none
  finish
    | .nothing => some []
    | _ => none
  scan seen c := if c = '"' then (if seen < 2 then some (seen + 1) else none) else some 0
  isClear seen := seen == 0

theorem isLawful_python : python.IsLawful where
  nonempty := by decide
  closes pending seen rest := by
    cases pending with
    | nothing =>
        match seen with
        | 0 => exact iff_of_true rfl ⟨[], rfl, 0, rfl, rfl⟩
        | 1 =>
            have hearly : python.behindFrom .nothing 1 (python.closing.toList ++ rest)
                = some ('"' :: rest) := rfl
            rw [hearly]
            exact iff_of_false (by simp) (by rintro ⟨_, ⟨⟩, _, ⟨⟩, ⟨⟩⟩)
        | n + 2 =>
            have hearly : python.behindFrom .nothing (n + 2) (python.closing.toList ++ rest)
                = some ('"' :: '"' :: rest) := rfl
            rw [hearly]
            refine iff_of_false (fun h => ?_) (by rintro ⟨_, ⟨⟩, _, ⟨⟩, ⟨⟩⟩)
            have hlength := congrArg List.length (Option.some.inj h)
            simp only [List.length_cons] at hlength
            omega
    | slash =>
        have hopen : python.behindFrom .slash seen (python.closing.toList ++ rest)
            = python.behindFrom .nothing 2 rest := rfl
        rw [hopen]
        exact iff_of_false (behindFrom_ne_some (Nat.le_refl _)) (by rintro ⟨_, ⟨⟩, -⟩)
    | marks => exact iff_of_false (fun h => by cases h) fun ⟨_, h, _⟩ => by cases h
    | digits more unit => exact iff_of_false (fun h => by cases h) fun ⟨_, h, _⟩ => by cases h

/-- Characters pass in Python exactly if they hold no three quotes in a row and do not end with one.
-/
theorem passes_python_iff :
    python.Passes 0 meant ↔ ¬['"', '"', '"'] <:+: meant ∧ meant.getLast? ≠ some '"' := by
  -- the quotes that have been seen stand in front
  have hfrom : ∀ seen ≤ 2, python.Passes seen meant
      ↔ ¬['"', '"', '"'] <:+: List.replicate seen '"' ++ meant
        ∧ (List.replicate seen '"' ++ meant).getLast? ≠ some '"' := by
    induction meant with
    | nil =>
        intro seen hseen
        have hpasses : python.Passes seen [] ↔ seen = 0 :=
          ⟨by rintro ⟨_, ⟨⟩, hclear⟩; exact beq_iff_eq.mp hclear, fun h => ⟨seen, rfl, beq_iff_eq.mpr h⟩⟩
        rw [hpasses, List.append_nil]
        obtain rfl | rfl | rfl : seen = 0 ∨ seen = 1 ∨ seen = 2 := by omega
        all_goals decide
    | cons c cs ih =>
        intro seen hseen
        rw [passes_cons]
        by_cases hquote : c = '"'
        · subst hquote
          rcases Nat.lt_or_eq_of_le hseen with hlt | rfl
          · have hscan : python.scan seen '"' = some (seen + 1) := by
              show (if '"' = '"' then (if seen < 2 then some (seen + 1) else none) else some 0) = _
              rw [if_pos rfl, if_pos hlt]
            have hfront : List.replicate seen '"' ++ '"' :: cs = List.replicate (seen + 1) '"' ++ cs := by
              rw [List.replicate_succ', List.append_assoc, List.singleton_append]
            simp only [hscan, Option.some.injEq, exists_eq_left', ih (seen + 1) hlt, hfront]
          · have hscan : python.scan 2 '"' = none := rfl
            rw [hscan]
            refine iff_of_false (by simp) fun h => h.1 ⟨[], cs, rfl⟩
        · have hscan : python.scan seen c = some 0 := if_neg hquote
          simp only [hscan, Option.some.injEq, exists_eq_left', ih 0 (Nat.zero_le _)]
          have hlast : (List.replicate seen '"' ++ c :: cs).getLast? = some '"'
              ↔ cs.getLast? = some '"' := by
            cases cs <;> simp [hquote]
          have hpart : ['"', '"', '"'] <:+: List.replicate seen '"' ++ c :: cs
              ↔ ['"', '"', '"'] <:+: cs := by
            obtain rfl | rfl | rfl : seen = 0 ∨ seen = 1 ∨ seen = 2 := by omega
            all_goals simp [List.replicate, List.infix_cons_iff, List.cons_prefix_cons, Ne.symm hquote]
          simp only [hpart, ne_eq, hlast, List.replicate_zero, List.nil_append]
  exact hfrom 0 (Nat.zero_le _)

/-- A text stays inside a docstring exactly if no backslash stands alone at its end, and it neither
holds three quotes in a row nor ends with one, those behind a backslash apart. -/
theorem keeps_python_iff :
    python.Keeps s ↔ ∃ meant, python.meaning? .nothing s.toList = some meant
      ∧ ¬['"', '"', '"'] <:+: meant ∧ meant.getLast? ≠ some '"' :=
  exists_congr fun _ => and_congr_right fun _ => passes_python_iff

end CommentRules

/-! ## Files with comments -/

/-- A stretch of a file. -/
inductive Part where
  | code (s : String)
  | comment (s : String)

namespace Part

/-- A comment stands between an opening and a closing. -/
def text (r : CommentRules) : Part → String
  | code s => s
  | comment s => r.opening ++ s ++ r.closing

def comment? : Part → Option String
  | code _ => none
  | comment s => some s

/-- The text of a file in parts. -/
def textOf (r : CommentRules) (parts : List Part) : String := String.join (parts.map (text r))

/-- Each comment of a file, read from its opening on, ends behind its own closing. -/
def AllClosed (r : CommentRules) (parts : List Part) : Prop :=
  ∀ before s after, parts = before ++ comment s :: after →
    r.behind (s ++ (r.closing ++ textOf r after)).toList = some (textOf r after).toList

variable {r : CommentRules}

/-- Every comment ends behind its own closing exactly if the texts of comments stay inside. -/
theorem allClosed_iff (h : r.IsLawful) {parts : List Part} :
    AllClosed r parts ↔ ∀ s ∈ parts.filterMap comment?, r.Keeps s := by
  have hsplit : (∀ s ∈ parts.filterMap comment?, r.Keeps s)
      ↔ ∀ before s after, parts = before ++ comment s :: after → r.Keeps s := by
    constructor
    · rintro hall before s after rfl
      exact hall s (List.mem_filterMap.mpr ⟨comment s, by simp, rfl⟩)
    · intro hall s hs
      obtain ⟨part, hpart, hcomment⟩ := List.mem_filterMap.mp hs
      obtain ⟨before, after, rfl⟩ := List.append_of_mem hpart
      cases part with
      | code _ => cases hcomment
      | comment _ =>
          cases hcomment
          exact hall before s after rfl
  rw [hsplit]
  refine forall₃_congr fun before s after => imp_congr_right fun _ => ?_
  rw [String.toList_append, String.toList_append, h.behind_eq_iff]

end Part

end ApiScaffold
