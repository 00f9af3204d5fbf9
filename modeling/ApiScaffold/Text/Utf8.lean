import ApiScaffold.Text.Quoted

/-!
# UTF-8

The reading of bytes as UTF-8. The first byte of a character tells how many follow and which values
the next may have (`form?`); the bounds leave out overlong forms and the halves of UTF-16. What
breaks off or goes on otherwise is no text, and the fault tells where.

Only percent escapes in the tags of YAML are read byte by byte; files come as texts already. The
result is code points, which are spelt where they enter a text.
-/

namespace ApiScaffold.Text.Utf8

/-- The form of a character: how many bytes follow the first, and the values that the next may
have, from the least on and below a bound. -/
structure Form where
  following : Nat
  least : Nat := 0x80
  bound : Nat := 0xC0

/-- The form that a first byte announces, if it can be one. -/
def form? (b : Nat) : Option Form :=
  if b < 0x80 then some { following := 0 }
  else if b < 0xC2 then none
  else if b < 0xE0 then some { following := 1 }
  else if b = 0xE0 then some { following := 2, least := 0xA0 }
  else if b = 0xED then some { following := 2, bound := 0xA0 }
  else if b < 0xF0 then some { following := 2 }
  else if b = 0xF0 then some { following := 3, least := 0x90 }
  else if b < 0xF4 then some { following := 3 }
  else if b = 0xF4 then some { following := 3, bound := 0x90 }
  else none

/-- The bytes from the start of a list on that may follow a first byte. -/
def Form.followers (form : Form) : List Nat → List Nat
  | [] => []
  | b :: rest =>
    if form.following = 0 ∨ b < form.least ∨ form.bound ≤ b then []
    else b :: (rest.take (form.following - 1)).takeWhile fun c => 0x80 ≤ c && c < 0xC0

/-- The code point of a first byte and those that follow it. -/
def pointOf (first : Nat) (followers : List Nat) : Nat :=
  let head := match followers.length with
    | 0 => first
    | n => first % Nat.pow 2 (6 - n)
  followers.foldl (fun acc b => acc * 64 + b % 64) head

/-- Why bytes are no text, and the bytes that show it. -/
structure Fault where
  first : Nat
  position : Nat
  length : Nat
  reason : String

/-- The code points of bytes that start at a position. -/
def decodeFrom (position : Nat) : List Nat → Except Fault (List Nat)
  | [] => .ok []
  | b :: rest =>
    match form? b with
    | none => .error { first := b, position, length := 1, reason := "invalid start byte" }
    | some form =>
      let followers := form.followers rest
      let length := followers.length + 1
      if followers.length = form.following then do
        return pointOf b followers :: (← decodeFrom (position + length) (rest.drop followers.length))
      else if followers.length = rest.length then
        .error { first := b, position, length, reason := "unexpected end of data" }
      else .error { first := b, position, length, reason := "invalid continuation byte" }
termination_by bytes => bytes.length
decreasing_by simp only [List.length_drop, List.length_cons]; omega

/-- The code points of bytes. -/
def decode (bytes : List Nat) : Except Fault (List Nat) := decodeFrom 0 bytes

def Fault.message (fault : Fault) : String :=
  let place :=
    if fault.length = 1 then
      "byte 0x" ++ String.ofList (hexDigits 2 fault.first) ++ " in position "
        ++ toString fault.position
    else
      "bytes in position " ++ toString fault.position ++ "-"
        ++ toString (fault.position + fault.length - 1)
  "'utf-8' codec can't decode " ++ place ++ ": " ++ fault.reason

end ApiScaffold.Text.Utf8
