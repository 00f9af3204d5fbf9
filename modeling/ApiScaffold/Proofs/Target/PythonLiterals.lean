import ApiScaffold.Proofs.Model.Build
import ApiScaffold.Proofs.Text.Literal

/-!
# The literals of the target in Python

A backslash opens an escape, and an escape with a number denotes one code point, whatever stands
next to it: two escapes for the halves of a pair are not joined, as they are in JSON and Java. The
reader is an automaton (`Reading.step`) that runs over the characters of a literal
(`Reading.points?`).

* `points?_form`: whatever may stand for a code point in a literal is read as its UTF-16 units, one
  code point each. The forms of a code point are those that the readers of JSON and Java take as
  well.
* `denoted?_literal`: so the literal of a text denotes the text with its pairs taken apart
  (`apart`).
* `apart_eq_iff`: that is the text itself exactly if no code point of it needs a pair (`HasNoPair`).
* `literals_readApart`: so it is for every default and for every allowed value of an enumeration.
-/

namespace ApiScaffold

namespace Target.Python

/-! ## The rules -/

/-- Where the reader of a literal in double quotes stands. -/
inductive Reading where
  | plain
  /-- Behind the backslash of an escape. -/
  | escape
  /-- In the number of an escape, which up to `more` octal digits continue. -/
  | octal (more number : Nat)
  /-- In the number of an escape, which `more` hexadecimal digits complete. -/
  | hex (more number : Nat)
  /-- Behind the closing quote. -/
  | closed

/-- The code point of an escape that is one letter or sign. -/
def shortPoint? : Char → Option Nat
  | '\\' => some 92
  | '"' => some 34
  | 'a' => some 7
  | 'b' => some 8
  | 't' => some 9
  | 'n' => some 10
  | 'v' => some 11
  | 'f' => some 12
  | 'r' => some 13
  | c => if c.toNat = 39 then some 39 else none

/-- How many hexadecimal digits stand behind a letter. -/
def hexWidth? : Char → Option Nat
  | 'x' => some 2
  | 'u' => some 4
  | 'U' => some 8
  | _ => none

def octalDigit? (c : Char) : Option Nat := Numeral.ofDigits? 8 [c]

namespace Reading

/-- A character outside of escapes. -/
def plainStep (c : Char) : Option (List Nat × Reading) :=
  if c = '"' then some ([], .closed)
  else if c = '\\' then some ([], .escape)
  else if c = '\n' ∨ c = '\r' then none
  else some ([c.toNat], .plain)

/-- A character behind a backslash. What opens no escape stays there with its backslash; names of
characters are not read. -/
def escapeStep (c : Char) : Option (List Nat × Reading) :=
  match shortPoint? c, hexWidth? c, octalDigit? c with
  | some n, _, _ => some ([n], .plain)
  | none, some width, _ => some ([], .hex width 0)
  | none, none, some d => some ([], .octal 2 d)
  | none, none, none =>
    if c = '\n' then some ([], .plain)
    else if c = 'N' ∨ c = '\r' then none
    else some ([92, c.toNat], .plain)

/-- One character: what the literal denotes so far, and where the reader stands behind it. -/
def step : Reading → Char → Option (List Nat × Reading)
  | .plain, c => plainStep c
  | .escape, c => escapeStep c
  | .octal more number, c =>
    match more, octalDigit? c with
    | more + 1, some d => some ([], .octal more (number * 8 + d))
    | _, _ => do
      -- the number has ended in front of the character
      let (points, next) ← plainStep c
      return (number :: points, next)
  | .hex more number, c => do
    let d ← Numeral.ofDigits? 16 [c]
    let number := number * 16 + d
    match more with
    | 0 => none
    | 1 => if number < 0x110000 then some ([number], .plain) else none
    | more + 1 => some ([], .hex more number)
  | .closed, _ => none

/-- The code points that the rest of a literal denotes, up to the closing quote at its end. -/
def points? : Reading → List Char → Option (List Nat)
  | .closed, [] => some []
  | _, [] => none
  | reading, c :: cs => do
    let (points, next) ← reading.step c
    return points ++ (← next.points? cs)

end Reading

/-- The code points that a literal in double quotes denotes. -/
def denoted? (literal : String) : Option (List Nat) :=
  match literal.toList with
  | '"' :: rest => Reading.plain.points? rest
  | _ => none

example : denoted? "\"\\101\\x41\\u0041\\U00000041\\d\\\"\"" = some [65, 65, 65, 65, 92, 100, 34] := by
  decide

/-! ## The literal of a text -/

/-- A text with its pairs taken apart. -/
def apart (s : String) : List Nat := (Text.points s).flatMap Text.utf16Units

/-- Whether every code point of a text is one unit. -/
def HasNoPair (s : String) : Prop := ∀ n ∈ Text.points s, n < 0x10000

instance (s : String) : Decidable (HasNoPair s) :=
  List.decidableBAll _ (Text.points s)

variable {c : Char} {cs rest : List Char} {n unit : Nat}

theorem points?_cons {reading next : Reading} {points : List Nat}
    (h : reading.step c = some (points, next)) :
    reading.points? (c :: rest) = (points ++ ·) <$> next.points? rest := by
  have hcons : reading.points? (c :: rest) = (do
      let (points, next) ← reading.step c
      return points ++ (← next.points? rest)) := by
    cases reading <;> rfl
  rw [hcons, h, Option.bind_eq_bind, Option.bind_some]
  dsimp only
  cases next.points? rest <;> rfl

theorem step_slash : Reading.plain.step '\\' = some ([], .escape) := rfl

theorem ofDigits?_digitChar (h : n < 16) : Numeral.ofDigits? 16 [n.digitChar] = some n := by
  have hall : ∀ m < 16, Numeral.ofDigits? 16 [Nat.digitChar m] = some m := by decide
  exact hall n h

/-- A digit before the last takes the number on. -/
theorem step_hex (more number : Nat) {d : Nat} (hd : d < 16) :
    (Reading.hex (more + 2) number).step d.digitChar = some ([], .hex (more + 1) (number * 16 + d)) := by
  rw [Reading.step, ofDigits?_digitChar hd]
  rfl

theorem step_hex_last (number : Nat) {d : Nat} (hd : d < 16) (h : number * 16 + d < 0x110000) :
    (Reading.hex 1 number).step d.digitChar = some ([number * 16 + d], .plain) := by
  rw [Reading.step, ofDigits?_digitChar hd, Option.bind_eq_bind, Option.bind_some]
  exact if_pos h

/-- An escaped unit is read as one code point. -/
theorem points?_unitEscape (h : unit < 0x10000) :
    Reading.plain.points? (Text.unitEscape unit ++ rest)
      = (unit :: ·) <$> Reading.plain.points? rest := by
  have hsum : (((0 * 16 + unit / 16 / 16 / 16) * 16 + unit / 16 / 16 % 16) * 16
      + unit / 16 % 16) * 16 + unit % 16 = unit := by omega
  have hlast := step_hex_last (((0 * 16 + unit / 16 / 16 / 16) * 16
      + unit / 16 / 16 % 16) * 16 + unit / 16 % 16) (Nat.mod_lt unit (show 0 < 16 by decide))
    (by omega)
  rw [hsum] at hlast
  have hopen : Reading.escape.step 'u' = some ([], .hex 4 0) := rfl
  rw [Text.unitEscape, Text.hexDigits_four h]
  simp only [List.cons_append, List.nil_append]
  rw [points?_cons step_slash, points?_cons hopen, points?_cons (step_hex 2 _ (by omega)),
    points?_cons (step_hex 1 _ (Nat.mod_lt _ (by decide))),
    points?_cons (step_hex 0 _ (Nat.mod_lt _ (by decide))), points?_cons hlast]
  cases Reading.plain.points? rest <;> rfl

theorem points?_escapes {units : List Nat} (h : ∀ unit ∈ units, unit < 0x10000) :
    Reading.plain.points? (units.flatMap Text.unitEscape ++ rest)
      = (units ++ ·) <$> Reading.plain.points? rest := by
  induction units with
  | nil => cases hr : Reading.plain.points? rest <;> simp [hr]
  | cons unit units ih =>
      rw [List.forall_mem_cons] at h
      rw [List.flatMap_cons, List.append_assoc, points?_unitEscape h.1, ih h.2]
      cases Reading.plain.points? rest <;> rfl

/-- Python has the short escapes of JSON. -/
theorem shortPoint?_of_shortUnit? {e : Char} (h : Text.shortUnit? e = some n) :
    shortPoint? e = some n := by
  unfold Text.shortUnit? at h
  split at h <;> cases h <;> rfl

/-- What stands for a code point in a literal is read as its units. -/
theorem points?_form (hn : n < 0x110000) (h : Text.LiteralForm Text.isPlain n cs) :
    Reading.plain.points? (cs ++ rest) = (Text.utf16Units n ++ ·) <$> Reading.plain.points? rest := by
  cases h with
  | @short e he =>
      have hstep : Reading.escape.step e = some ([n], .plain) := by
        rw [Reading.step, Reading.escapeStep, shortPoint?_of_shortUnit? he]
      rw [Text.utf16Units_of_lt (Text.shortUnit?_eq_some he).2, List.cons_append, List.cons_append,
        List.nil_append, points?_cons step_slash, points?_cons hstep]
      cases Reading.plain.points? rest <;> rfl
  | @kept c hc hs hplain =>
      subst hc
      obtain ⟨-, hlow⟩ : 32 ≤ c.toNat ∧ c.toNat < 127 := by simpa [Text.isPlain] using hplain
      have other {d : Char} (hd : Text.isSyntax d.toNat = true) : c ≠ d := by
        rintro rfl
        exact Bool.false_ne_true (hs.symm.trans hd)
      have hstep : Reading.plain.step c = some ([c.toNat], .plain) := by
        rw [Reading.step, Reading.plainStep, if_neg (other rfl), if_neg (other rfl),
          if_neg (not_or.mpr ⟨other rfl, other rfl⟩)]
      rw [Text.utf16Units_of_lt (by omega), List.cons_append, List.nil_append, points?_cons hstep]
  | units =>
      exact points?_escapes fun unit hunit => Text.utf16Units_lt hn hunit

/-- The literal of a text denotes the text with its pairs taken apart. -/
theorem denoted?_literal (s : String) : denoted? (Text.literal s) = some (apart s) := by
  rw [denoted?, Text.literal, String.toList_ofList]
  simp only [List.cons_append]
  exact Text.read_body rfl points?_form s

/-- Code points are as many as their units only if none of them is a pair. -/
theorem flatMap_utf16Units_eq_iff (ns : List Nat) :
    ns.flatMap Text.utf16Units = ns ↔ ∀ n ∈ ns, n < 0x10000 := by
  have htwo {n : Nat} (h : ¬n < 0x10000) : (Text.utf16Units n).length = 2 := by
    rw [Text.utf16Units, if_neg h]
    rfl
  have hlong : ∀ ns : List Nat, ns.length ≤ (ns.flatMap Text.utf16Units).length := by
    intro ns
    induction ns with
    | nil => exact Nat.zero_le _
    | cons n ns ih =>
        rw [List.flatMap_cons, List.length_append, List.length_cons]
        by_cases h : n < 0x10000
        · rw [Text.utf16Units_of_lt h, List.length_singleton]
          omega
        · rw [htwo h]
          omega
  induction ns with
  | nil => simp
  | cons n ns ih =>
      rw [List.flatMap_cons, List.forall_mem_cons]
      by_cases h : n < 0x10000
      · rw [Text.utf16Units_of_lt h, List.singleton_append, List.cons_inj_right, and_iff_right h]
        exact ih
      · refine iff_of_false (fun heq => ?_) (fun hall => h hall.1)
        have hlen := congrArg List.length heq
        have hrest := hlong ns
        rw [List.length_append, htwo h, List.length_cons] at hlen
        omega

theorem apart_eq_iff (s : String) : apart s = Text.points s ↔ HasNoPair s :=
  flatMap_utf16Units_eq_iff (Text.points s)

/-- What a literal of a text denotes. -/
structure ReadsApart (text s : String) : Prop where
  denoted : denoted? text = some (apart s)
  faithful : denoted? text = some (Text.points s) ↔ HasNoPair s

theorem readsApart_literal (s : String) : ReadsApart (Text.literal s) s where
  denoted := denoted?_literal s
  faithful := by rw [denoted?_literal, Option.some_inj, apart_eq_iff]

/-! ## The literals of the target -/

/-- The literal of a text, as a default or as an allowed value of an enumeration, denotes the text
with its pairs taken apart. -/
theorem literals_readApart (s : String) :
    (∀ type, ∃ text, python.literal? (.str s) type = some text ∧ ReadsApart text s)
    ∧ (∀ schema type, Members.get? schema "default" = some (.str s) → type.isContainer = false →
        (type.isPrimitive || type.isWideInteger) = true →
        ∃ text, python.defaultLiteral? schema type = some text ∧ ReadsApart text s)
    ∧ ∀ (g : Generator) (spec : Spec) (name schema : Value) (m : Model), g.target = python →
        Model.ofSchema g spec name schema = .ok m →
        List.Forall₂ (fun v text => v = .str s → ReadsApart text s)
          m.allowedValues m.enumLiterals := by
  have hliteral (t : Target) (type : TargetType) :
      t.literal? (.str s) type = some (Text.literal s) := rfl
  refine ⟨fun type => ⟨_, hliteral _ type, readsApart_literal s⟩, ?_, ?_⟩
  · intro schema type hdefault hcontainer hscalar
    have hkept : ¬((type.isContainer || (!type.isPrimitive && !type.isWideInteger)) = true) := by
      rw [hcontainer, ← Bool.not_or, hscalar]
      decide
    refine ⟨Text.literal s, ?_, readsApart_literal s⟩
    rw [defaultLiteral?, hdefault]
    exact (if_neg hkept).trans (hliteral _ type)
  · intro g spec name schema m _ h
    obtain ⟨_, members, rfl, rfl, -⟩ := Model.ofSchema_ok h
    unfold Model.ofSchema at h
    dsimp only at h
    split at h
    · obtain ⟨type, hm⟩ := Model.buildEnum_ok h
      refine (Attempt.forall₂_of_mapM? hm.written).imp fun v text hv hs => ?_
      obtain rfl := Option.some.inj ((hliteral _ type).symm.trans (hs ▸ hv))
      exact readsApart_literal s
    · -- a record has no values of its own
      obtain ⟨gathered, built, hm⟩ := Model.buildRecord_ok h
      rw [hm.assembled]
      exact .nil

/-- An enumeration of two texts without pairs. -/
def moods : Members :=
  [(.str "type", .str "string"), (.str "enum", .list [.str "\"süß\"\n", .str "\\"])]

/-- Values with quotes, a letter beyond ASCII, a new line and a backslash are read as they are. -/
theorem literals_readApart_moods : ∃ m,
    Model.ofSchema (.ofTarget .python []) .bare (.str "Mood") (.map moods) = .ok m
      ∧ m.enumLiterals = ["\"\\\"s\\u00fc\\u00df\\\"\\n\"", "\"\\\\\""]
      ∧ m.enumLiterals.map denoted?
          = [some (Text.points "\"süß\"\n"), some (Text.points "\\")] := by
  have hbuilt : ((Model.ofSchema (.ofTarget .python []) .bare (.str "Mood") (.map moods)).toOption.map
      fun m => (m.allowedValues.map Value.asStr?, m.enumLiterals))
      = some ([some "\"süß\"\n", some "\\"],
        ["\"\\\"s\\u00fc\\u00df\\\"\\n\"", "\"\\\\\""]) := by
    decide +kernel
  obtain ⟨m, h, heq⟩ := Attempt.exists_of_toOption_map hbuilt
  obtain ⟨hvalues, htexts⟩ := Prod.mk.inj heq
  have hread (s : String) : List.Forall₂ (fun s? text => s? = some s → ReadsApart text s)
      [some "\"süß\"\n", some "\\"] ["\"\\\"s\\u00fc\\u00df\\\"\\n\"", "\"\\\\\""] := by
    rw [← hvalues, ← htexts, List.forall₂_map_left_iff]
    exact ((literals_readApart s).2.2 _ _ _ _ m rfl h).imp
      fun v text hv hs => hv (Value.eq_str_of_asStr? hs)
  have hfirst := (List.forall₂_cons.mp (hread "\"süß\"\n")).1 rfl
  have hsecond := (List.forall₂_cons.mp (List.forall₂_cons.mp (hread "\\")).2).1 rfl
  refine ⟨m, h, htexts, ?_⟩
  rw [htexts]
  simp only [List.map_cons, List.map_nil]
  rw [hfirst.faithful.mpr (by decide), hsecond.faithful.mpr (by decide)]

/-- A text of one pair, which its literal does not denote. -/
theorem default_splits_pair : ∃ text,
    python.defaultLiteral? [(.str "type", .str "string"), (.str "default", .str "😀")]
        (TypeMapping.toType { name := "str", default := "None" }) = some text
      ∧ text = "\"\\ud83d\\ude00\"" ∧ Text.spelt "😀" = "😀" ∧ Text.points "😀" = [0x1F600]
      ∧ denoted? text = some [0xD83D, 0xDE00]
      ∧ denoted? text ≠ some (Text.points "😀") :=
  ⟨_, rfl, by decide +kernel, by decide +kernel, by decide, by decide +kernel, by decide +kernel⟩

end Target.Python

end ApiScaffold
