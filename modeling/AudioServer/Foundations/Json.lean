import AudioServer.Foundations.Strings

/-! JSON texts, by their parts: `ensure_ascii` is off, and the separators are the writer's. -/

namespace AudioServer.Foundations.Json

open AudioServer.Foundations.Strings

def hexDigit (n : ℕ) : Char := if n < 10 then Char.ofNat (48 + n) else Char.ofNat (87 + n)

/-- 34 and 92 are the quotation mark and the backslash. -/
def escape (c : Char) : Text :=
  let backslash := Char.ofNat 92
  if c.toNat = 34 ∨ c.toNat = 92 then [backslash, c]
  else if c.toNat = 8 then [backslash, 'b']
  else if c.toNat = 9 then [backslash, 't']
  else if c.toNat = 10 then [backslash, 'n']
  else if c.toNat = 12 then [backslash, 'f']
  else if c.toNat = 13 then [backslash, 'r']
  else if c.toNat < 32 then [backslash, 'u', '0', '0', hexDigit (c.toNat / 16), hexDigit (c.toNat % 16)]
  else [c]

def jsonString (s : Text) : Text := Char.ofNat 34 :: s.flatMap escape ++ [Char.ofNat 34]

structure Separators where
  item : Text
  key : Text

/-- The separators of `json.dumps` as it comes. -/
def spaced : Separators := ⟨", ".toList, ": ".toList⟩

def compact : Separators := ⟨",".toList, ":".toList⟩

def jsonArray (seps : Separators) (items : List Text) : Text :=
  '[' :: List.intercalate seps.item items ++ [']']

/-- 123 and 125 are the braces. -/
def jsonObject (seps : Separators) (fields : List (String × Text)) : Text :=
  Char.ofNat 123 :: List.intercalate seps.item
    (fields.map (fun f => jsonString f.1.toList ++ seps.key ++ f.2)) ++ [Char.ofNat 125]

example : (jsonString [Char.ofNat 34, Char.ofNat 31, 'x']).length = 2 + 2 + 6 + 1 := by decide

end AudioServer.Foundations.Json
