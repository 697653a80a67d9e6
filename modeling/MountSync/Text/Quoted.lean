/-
Names inside error messages.

A name that is refused is shown between quotation marks, with everything that would
disturb the line it stands in written as an escape.
-/
import MountSync.Text.Hex
import MountSync.Text.Printable

namespace MountSync.Text

/-- One character of a quoted name.  The apostrophe needs no escape between quotation
marks. -/
def escapeChar (c : Char) : List Char :=
  if c = '\x00' then ['\\', '0']
  else if c = '\t' then ['\\', 't']
  else if c = '\r' then ['\\', 'r']
  else if c = '\n' then ['\\', 'n']
  else if c = '"' then ['\\', '"']
  else if c = '\\' then ['\\', '\\']
  else if standsAlone c then [c]
  else ['\\', 'u', '\x7b'] ++ (hexShort c.toNat).toList ++ ['\x7d']

/-- A name between quotation marks. -/
def quoted (s : String) : String :=
  String.ofList ('"' :: s.toList.flatMap escapeChar ++ ['"'])

end MountSync.Text
