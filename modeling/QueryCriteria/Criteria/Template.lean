import QueryCriteria.Decimal.Digits
import QueryCriteria.Text.Identifier

namespace QueryCriteria.Template

open QueryCriteria.Decimal QueryCriteria.Text

inductive Token where
  | positional (index : Nat)
  | named (name : String)
  | column
deriving DecidableEq, Repr

inductive Segment where
  | text (s : String)
  | token (t : Token)
deriving DecidableEq, Repr

inductive Fault where
  | unclosed (position : Nat)
  | invalidToken (token : String) (position : Nat)
deriving DecidableEq, Repr

def Token.text : Token → String
  | .positional index => "\x7b" ++ toString index ++ "\x7d"
  | .named name => "\x7b" ++ name ++ "\x7d"
  | .column => "\x7b@\x7d"

def Fault.message : Fault → String
  | .unclosed position => "unclosed '\x7b' at byte " ++ toString position
  | .invalidToken token position =>
      "invalid placeholder '\x7b" ++ token ++ "\x7d' at byte " ++ toString position

def indexBound : Nat := UInt64.size

def classify? (cs : List Char) : Option Token :=
  if cs = ['@'] then some .column
  else if cs ≠ [] ∧ cs.all Char.isDigit then
    if ofDigits cs < indexBound then some (.positional (ofDigits cs)) else none
  else if isIdentifierChars cs then some (.named (String.ofList cs))
  else none

inductive Lexeme where
  | literal (c : Char)
  | token (t : Token)
deriving DecidableEq, Repr

def lex (opened : Option (Nat × List Char)) (position : Nat) : List Char → Except Fault (List Lexeme)
  | [] =>
      match opened with
      | none => .ok []
      | some (start, _) => .error (.unclosed start)
  | c :: cs =>
      match opened with
      | some (start, token) =>
          if c = '}' then
            match classify? token.reverse with
            | none => .error (.invalidToken (String.ofList token.reverse) start)
            | some t => (lex none (position + 1) cs).map (.token t :: ·)
          else lex (some (start, c :: token)) (position + c.utf8Size) cs
      | none =>
          match cs with
          | d :: ds =>
              if c = '{' ∧ d = '{' ∨ c = '}' ∧ d = '}' then
                (lex none (position + 2) ds).map (.literal c :: ·)
              else if c = '{' then lex (some (position, [])) (position + 1) (d :: ds)
              else (lex none (position + c.utf8Size) (d :: ds)).map (.literal c :: ·)
          | [] => if c = '{' then .error (.unclosed position) else .ok [.literal c]

def gather : List Lexeme → List Segment
  | [] => []
  | .literal c :: ls =>
      match gather ls with
      | .text s :: rest => .text (String.singleton c ++ s) :: rest
      | rest => .text (String.singleton c) :: rest
  | .token t :: ls => .token t :: gather ls

def parse (template : String) : Except Fault (List Segment) :=
  (lex none 0 template.toList).map gather

end QueryCriteria.Template
