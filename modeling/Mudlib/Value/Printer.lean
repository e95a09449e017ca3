import Mudlib.Value.Basic
import Mudlib.Number.Shortest
/-!
Values as JSON text.

Only the quote, the backslash and control characters below the blank are escaped, by a letter where
there is one and else by `u00` and two lower-case hexadecimal digits. The members of an object are
written in their order.
-/
set_option autoImplicit false

namespace Mudlib.Value

def hexDigit (n : Nat) : Char := (Nat.toDigits 16 (n % 16)).headD '0'

def escape (c : Char) : List Char :=
  if c = '"' then ['\\', '"']
  else if c = '\\' then ['\\', '\\']
  else if c = '\x08' then ['\\', 'b']
  else if c = '\x0c' then ['\\', 'f']
  else if c = '\n' then ['\\', 'n']
  else if c = '\r' then ['\\', 'r']
  else if c = '\t' then ['\\', 't']
  else if c.toNat < 0x20 then
    ['\\', 'u', '0', '0', hexDigit (c.toNat / 16), hexDigit c.toNat]
  else [c]

def quote (text : String) : List Char := '"' :: text.toList.flatMap escape ++ ['"']

def renderInt (n : Int) : List Char :=
  if n < 0 then '-' :: Nat.toDigits 10 n.natAbs else Nat.toDigits 10 n.natAbs

def renderScalar : Value → List Char
  | .null => ['n', 'u', 'l', 'l']
  | .bool true => ['t', 'r', 'u', 'e']
  | .bool false => ['f', 'a', 'l', 's', 'e']
  | .int n => renderInt n
  | .float x => x.text
  | .str s => quote s
  | .list _ => []
  | .obj _ => []

mutual

def render : Value → List Char
  | .list [] => ['[', ']']
  | .list (x :: xs) => '[' :: render x ++ renderItems xs
  | .obj [] => ['{', '}']
  | .obj ((k, x) :: ms) => '{' :: quote k ++ ':' :: render x ++ renderMembers ms
  | v => renderScalar v
termination_by structural v => v

def renderItems : List Value → List Char
  | [] => [']']
  | x :: xs => ',' :: render x ++ renderItems xs
termination_by structural xs => xs

def renderMembers : List (String × Value) → List Char
  | [] => ['}']
  | (k, x) :: ms => ',' :: quote k ++ ':' :: render x ++ renderMembers ms
termination_by structural ms => ms

end

def compact (v : Value) : String := String.ofList v.render

def newline (level : Nat) : List Char := '\n' :: List.replicate (2 * level) ' '

mutual

def renderLines (level : Nat) : Value → List Char
  | .list [] => ['[', ']']
  | .list (x :: xs) =>
    '[' :: newline (level + 1) ++ renderLines (level + 1) x ++ renderItemLines level xs
  | .obj [] => ['{', '}']
  | .obj ((k, x) :: ms) =>
    '{' :: newline (level + 1) ++ quote k ++ ':' :: ' ' :: renderLines (level + 1) x ++
      renderMemberLines level ms
  | v => renderScalar v
termination_by structural v => v

def renderItemLines (level : Nat) : List Value → List Char
  | [] => newline level ++ [']']
  | x :: xs => ',' :: newline (level + 1) ++ renderLines (level + 1) x ++ renderItemLines level xs
termination_by structural xs => xs

def renderMemberLines (level : Nat) : List (String × Value) → List Char
  | [] => newline level ++ ['}']
  | (k, x) :: ms =>
    ',' :: newline (level + 1) ++ quote k ++ ':' :: ' ' :: renderLines (level + 1) x ++
      renderMemberLines level ms
termination_by structural ms => ms

end

def pretty (v : Value) : String := String.ofList (v.renderLines 0)

example : (ofMembers [("b", .list [.int (-1), .null]), ("a", .str "é\n")]).compact =
    "\x7b\"a\":\"é\\n\",\"b\":[-1,null]\x7d" := by decide +kernel

end Mudlib.Value
