import Oproxy.Lib.Text

/-!
# JSON values

Values with their members in order, reading them, and their text, without white space or with one value on a line.
-/

inductive Json where
  | null
  | bool (b : Bool)
  | int (n : Int)
  | float (lexeme : Str)
  | str (s : Str)
  | arr (items : List Json)
  | obj (members : List (Str × Json))

namespace Json

/-- The member of an object with a key. -/
def get? (key : Str) : Json → Option Json
  | .obj members => (members.find? fun m => m.1 = key).map Prod.snd
  | _ => none

def asStr : Json → Option Str
  | .str s => some s
  | _ => none

def asBool : Json → Option Bool
  | .bool b => some b
  | _ => none

def asArray : Json → Option (List Json)
  | .arr items => some items
  | _ => none

def isNull : Json → Bool
  | .null => true
  | _ => false

def quoteMark : Char := Char.ofNat 34

/-- A character as it stands in a JSON text. -/
def escaped (c : Char) : Str :=
  if c = quoteMark then ['\\', quoteMark]
  else if c = '\\' then ['\\', '\\']
  else if c = '\n' then ['\\', 'n']
  else if c = '\r' then ['\\', 'r']
  else if c = '\t' then ['\\', 't']
  else if c.toNat = 8 then ['\\', 'b']
  else if c.toNat = 12 then ['\\', 'f']
  else if c.toNat < 32 then ['\\', 'u', '0', '0'] ++ [Nat.digitChar (c.toNat / 16), Nat.digitChar (c.toNat % 16)]
  else [c]

def quoted (s : Str) : Str := quoteMark :: (s.flatMap escaped ++ [quoteMark])

def ofInt (n : Int) : Str := if n < 0 then '-' :: Str.ofNat n.natAbs else Str.ofNat n.natAbs

mutual

/-- The text of a value without white space. -/
def compact : Json → Str
  | .null => "null"
  | .bool b => if b then "true" else "false"
  | .int n => ofInt n
  | .float lexeme => lexeme
  | .str s => quoted s
  | .arr items => '[' :: (compactItems items ++ [']'])
  | .obj members => '\x7b' :: (compactMembers members ++ ['\x7d'])

private def compactItems : List Json → Str
  | [] => []
  | [v] => compact v
  | v :: w :: rest => compact v ++ ',' :: compactItems (w :: rest)

private def compactMembers : List (Str × Json) → Str
  | [] => []
  | [(key, v)] => quoted key ++ ':' :: compact v
  | (key, v) :: m :: rest => quoted key ++ ':' :: compact v ++ ',' :: compactMembers (m :: rest)

end

/-- The start of a line. -/
def newline (depth : Nat) : Str := '\n' :: List.replicate (2 * depth) ' '

mutual

/-- The text of a value with one value on a line, indented by two blanks. -/
def pretty (depth : Nat) : Json → Str
  | .null => "null"
  | .bool b => if b then "true" else "false"
  | .int n => ofInt n
  | .float lexeme => lexeme
  | .str s => quoted s
  | .arr [] => "[]"
  | .arr (v :: rest) => '[' :: (prettyItems (depth + 1) [] (v :: rest) ++ newline depth ++ [']'])
  | .obj [] => "\x7b\x7d"
  | .obj (m :: rest) => '\x7b' :: (prettyMembers (depth + 1) [] (m :: rest) ++ newline depth ++ ['\x7d'])

/-- The items of an array, with what stands before the line of the first. -/
def prettyItems (depth : Nat) (before : Str) : List Json → Str
  | [] => []
  | v :: rest => before ++ newline depth ++ pretty depth v ++ prettyItems depth "," rest

def prettyMembers (depth : Nat) (before : Str) : List (Str × Json) → Str
  | [] => []
  | (key, v) :: rest =>
    before ++ newline depth ++ quoted key ++ ": " ++ pretty depth v ++ prettyMembers depth "," rest

end

end Json
