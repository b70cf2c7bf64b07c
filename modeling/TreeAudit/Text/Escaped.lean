import TreeAudit.Text.Unprintable

/-!
Texts shown in messages, between quotation marks and on one line.
-/

set_option autoImplicit false
set_option relaxedAutoImplicit false

namespace TreeAudit.Text.Escaped

def hexDigits (n : Nat) : List Char := Nat.toDigits 16 n

/-- A backslash or quotation mark is preceded by a backslash, the usual controls
have a letter, and what has no visible form is written as its code point. -/
def escape (c : Char) : List Char :=
  if c = '"' ∨ c = '\\' then ['\\', c]
  else if c = '\x00' then ['\\', '0']
  else if c = '\t' then ['\\', 't']
  else if c = '\r' then ['\\', 'r']
  else if c = '\n' then ['\\', 'n']
  else if 127 ≤ c.toNat ∨ c.toNat < 32 then
    if Unprintable.contains c.toNat then "\\u\x7b".toList ++ hexDigits c.toNat ++ ['\x7d'] else [c]
  else [c]

def quote (text : String) : String :=
  "\"" ++ String.ofList (text.toList.flatMap escape) ++ "\""

end TreeAudit.Text.Escaped
