/-
  CommitteeSync.Text.Quoted — text in quotes, with everything invisible spelled out.

  A quote and a backslash get a backslash; newline, return, tab and the zero character have
  a letter; a character that cannot be seen by itself is written as its hexadecimal number
  in braces; every other character stands as it is.
-/

import CommitteeSync.Text.GraphemeExtend
import CommitteeSync.Text.Unprintable

namespace CommitteeSync.Text

def inRanges (n : Nat) (rs : List (Nat × Nat)) : Bool := rs.any fun r => r.1 ≤ n && n ≤ r.2

/-- Characters that are written by number. -/
def isHidden (c : Char) : Bool :=
  inRanges c.toNat graphemeExtendRanges || inRanges c.toNat unprintableRanges

def quoteChar (c : Char) : List Char :=
  if c = '"' then ['\\', '"']
  else if c = '\\' then ['\\', '\\']
  else if c = '\n' then ['\\', 'n']
  else if c = '\r' then ['\\', 'r']
  else if c = '\t' then ['\\', 't']
  else if c.toNat = 0 then ['\\', '0']
  else if isHidden c then "\\u\x7b".toList ++ Nat.toDigits 16 c.toNat ++ ['\x7d']
  else [c]

def quote (s : String) : String := String.ofList ('"' :: s.toList.flatMap quoteChar ++ ['"'])

end CommitteeSync.Text
