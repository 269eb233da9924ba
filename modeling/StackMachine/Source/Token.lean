import StackMachine.Fault
import StackMachine.Source.Lexeme

/-!
# Tokens

The words and the quoted runs of program text, with the places where they stand. Places are
byte offsets into the text.
-/

namespace StackMachine.Source

structure Token where
  /-- The token as it is written, quotes included. -/
  text : String
  start : Nat
deriving DecidableEq, Repr

def Token.stop (token : Token) : Nat :=
  token.start + token.text.utf8ByteSize

def locate (offset : Nat) : List Lexeme → List Token
  | [] => []
  | lexeme :: more =>
    let tokens := locate (offset + lexeme.text.utf8ByteSize) more
    if lexeme.isToken then { text := lexeme.text, start := offset } :: tokens else tokens

def tokenize (source : String) : Except Fault (List Token) :=
  match lexemes source.toList with
  | (pieces, []) => .ok (locate 0 pieces)
  | (pieces, rest) =>
    .error (.unclosedQuote (String.ofList (charsOf pieces)).utf8ByteSize
      (String.ofList (Text.firstLine rest)))

end StackMachine.Source
