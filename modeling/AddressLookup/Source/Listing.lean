import AddressLookup.Source.Merge
import AddressLookup.Text.Hidden
import AddressLookup.Text.Split

/-!
The sources of a run in one line. Names are set in quotes, and a character that would not be seen as
itself is given by its code point.
-/

namespace AddressLookup.FieldSource

def visible (c : Char) : List Char :=
  if c = '"' || c = '\\' then ['\\', c]
  else if c = '\n' then ['\\', 'n']
  else if c = '\r' then ['\\', 'r']
  else if c = '\t' then ['\\', 't']
  else if c = '\x00' then ['\\', '0']
  else if Text.isHidden c then "\\u\x7b".toList ++ Nat.toDigits 16 c.toNat ++ ['\x7d']
  else [c]

def quotedName (name : String) : List Char :=
  '"' :: name.toList.flatMap visible ++ ['"']

def listing {σ ω : Type} [FieldSource σ ω] (sources : List σ) : String :=
  String.ofList ("App \x7b sources: [".toList ++
    Text.joinWith [',', ' '] ((names sources).map quotedName) ++ "] \x7d".toList)

end AddressLookup.FieldSource
