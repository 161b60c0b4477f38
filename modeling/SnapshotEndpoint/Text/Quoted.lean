import SnapshotEndpoint.Text.Blank
import SnapshotEndpoint.Text.Printable

/-!
Quoted text in messages: between double quotes, one line, every character that does not
show as itself written as an escape.
-/
namespace SnapshotEndpoint.Text

def quotedChar (c : Char) : List Char :=
  if c = '"' then ['\\', '"']
  else if c = '\\' then ['\\', '\\']
  else if c = '\n' then ['\\', 'n']
  else if c = '\r' then ['\\', 'r']
  else if c = '\t' then ['\\', 't']
  else if c.toNat = 0 then ['\\', '0']
  else if isEscaped c then ['\\', 'u', '{'] ++ hexDigits c.toNat ++ ['}']
  else [c]

def quoted (s : String) : String :=
  String.ofList ('"' :: s.toList.flatMap quotedChar ++ ['"'])

end SnapshotEndpoint.Text
