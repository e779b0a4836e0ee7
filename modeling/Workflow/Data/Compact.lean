import Workflow.Data

/-!
# Compact text of data values

A value is written without spaces, a record's fields in their order. In a text a quote, a
backslash and the characters below U+0020 are escaped and nothing else is.
-/

namespace Workflow

def hexDigit (n : Nat) : Char :=
  if n < 10 then Char.ofNat ('0'.toNat + n) else Char.ofNat ('a'.toNat + (n - 10))

namespace Data

def escapeChar (c : Char) : List Char :=
  if c = '"' then ['\\', '"']
  else if c = '\\' then ['\\', '\\']
  else if c = '\x08' then ['\\', 'b']
  else if c = '\x0c' then ['\\', 'f']
  else if c = '\n' then ['\\', 'n']
  else if c = '\r' then ['\\', 'r']
  else if c = '\t' then ['\\', 't']
  else if c.toNat < 32 then ['\\', 'u', '0', '0', hexDigit (c.toNat / 16), hexDigit (c.toNat % 16)]
  else [c]

def quoteText (s : String) : String :=
  String.ofList ('"' :: s.toList.flatMap escapeChar ++ ['"'])

mutual

def compact : Data → String
  | null => "null"
  | bool true => "true"
  | bool false => "false"
  | int n => (if n < 0 then "-" else "") ++ String.ofList (Nat.toDigits 10 n.natAbs)
  | decimal d => d.text
  | text s => quoteText s
  | list xs => "[" ++ compactItems xs ++ "]"
  | record fs => "\x7b" ++ compactFields fs ++ "\x7d"

def compactItems : List Data → String
  | [] => ""
  | [x] => compact x
  | x :: xs => compact x ++ "," ++ compactItems xs

def compactFields : List (String × Data) → String
  | [] => ""
  | [(k, x)] => quoteText k ++ ":" ++ compact x
  | (k, x) :: fs => quoteText k ++ ":" ++ compact x ++ "," ++ compactFields fs

end

def asText : Data → String
  | text s => s
  | d => d.compact

end Data

end Workflow
