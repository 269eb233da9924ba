/-!
# Control characters in log lines

The control characters that terminals act on are spelled out in a log line: five of the ASCII
range, and all of the second range from U+0080 to U+009F.
-/

namespace StackMachine.Text

def hexadecimal (n : Nat) : String :=
  String.ofList (Nat.toDigits 16 n)

def visibleChar (c : Char) : String :=
  if c ∈ ['\x1b', '\x07', '\x08', '\x0c', '\x7f'] then
    let digits := hexadecimal c.toNat
    "\\x" ++ (if digits.length < 2 then "0" else "") ++ digits
  else if 0x80 ≤ c.toNat ∧ c.toNat ≤ 0x9F then
    "\\u\x7b" ++ hexadecimal c.toNat ++ "\x7d"
  else
    String.singleton c

def visible (text : String) : String :=
  text.foldl (fun shown c => shown ++ visibleChar c) ""

end StackMachine.Text
