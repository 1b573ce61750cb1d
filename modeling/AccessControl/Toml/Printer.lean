import AccessControl.Toml.Character

namespace AccessControl.Toml

/-- The four ways to quote a string: with escapes or without, on one line or over several. -/
structure Quotation where
  escapes : Bool
  long : Bool
deriving DecidableEq

namespace Quotation

def mark (q : Quotation) : Char := if q.escapes then '"' else '\''

def delimiter (q : Quotation) : List Char := List.replicate (if q.long then 3 else 1) q.mark

def freeQuotes (q : Quotation) : Nat := if q.long then 2 else 0

def longestRow (c : Char) (current : Nat) : List Char → Nat
  | [] => current
  | d :: cs => if d = c then longestRow c (current + 1) cs else max current (longestRow c 0 cs)

def takes (q : Quotation) (cs : List Char) : Bool :=
  !cs.any (fun c => isControl c && (c != '\n' || !q.long) || q.escapes && c == '\\') &&
    longestRow q.mark 0 cs ≤ q.freeQuotes

/-- The first quotation that takes the text as it is. If there is none the text is escaped. -/
def choose (cs : List Char) : Quotation :=
  ([⟨true, false⟩, ⟨false, false⟩, ⟨true, true⟩, ⟨false, true⟩].find? (·.takes cs)).getD
    ⟨true, cs.contains '\n'⟩

end Quotation

def upperHexDigit (n : Nat) : Char := (Nat.digitChar n).toUpper

def escape (long : Bool) (c : Char) : List Char :=
  if c = '\\' then ['\\', '\\']
  else if c = '\n' then (if long then [c] else ['\\', 'n'])
  else if c = '\r' then ['\\', 'r']
  else if c = '\t' then ['\\', 't']
  else if c = '\x08' then ['\\', 'b']
  else if c = '\x0c' then ['\\', 'f']
  else if isControl c then
    ['\\', 'u', '0', '0', upperHexDigit (c.toNat / 16), upperHexDigit (c.toNat % 16)]
  else [c]

def escaped (q : Quotation) (free : Nat) : List Char → List Char
  | [] => []
  | '"' :: cs =>
    match free with
    | 0 => '\\' :: '"' :: escaped q q.freeQuotes cs
    | free + 1 => '"' :: escaped q free cs
  | c :: cs => escape q.long c ++ escaped q q.freeQuotes cs

def quote (s : String) : String :=
  let cs := s.toList
  let q := Quotation.choose cs
  let lineBreak := if q.long && cs.contains '\n' then ['\n'] else []
  let body := if q.escapes then escaped q q.freeQuotes cs else cs
  String.ofList (q.delimiter ++ lineBreak ++ body ++ q.delimiter)

end AccessControl.Toml
