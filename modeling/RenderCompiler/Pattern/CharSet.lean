set_option autoImplicit false

namespace RenderCompiler

inductive CharSet where
  | empty
  | range (low high : Char)
  | union (a b : CharSet)
  | intersection (a b : CharSet)
  | difference (a b : CharSet)
  | exclusive (a b : CharSet)
  | complement (set : CharSet)
  | anyCase (set : CharSet)
deriving DecidableEq, Repr

namespace CharSet

-- Letters other than those of ASCII have no case here.
def contains : CharSet → Char → Bool
  | .empty, _ => false
  | .range low high, c => low ≤ c && c ≤ high
  | .union a b, c => a.contains c || b.contains c
  | .intersection a b, c => a.contains c && b.contains c
  | .difference a b, c => a.contains c && !b.contains c
  | .exclusive a b, c => a.contains c != b.contains c
  | .complement set, c => !set.contains c
  | .anyCase set, c => set.contains c.toLower || set.contains c.toUpper

def single (c : Char) : CharSet := .range c c

def ofRanges (ranges : List (Char × Char)) : CharSet :=
  ranges.foldr (fun (low, high) set => .union (.range low high) set) .empty

-- A bound of what the set holds: whether some of it may lie past ASCII.
def passesAscii : CharSet → Bool
  | .empty => false
  | .range _ high => 0x80 ≤ high.toNat
  | .union a b => a.passesAscii || b.passesAscii
  | .intersection a b => a.passesAscii && b.passesAscii
  | .difference a _ => a.passesAscii
  | .exclusive a b => a.passesAscii || b.passesAscii
  | .complement _ => true
  | .anyCase set => set.passesAscii

def digits : CharSet := .range '0' '9'

def wordChars : CharSet := ofRanges [('0', '9'), ('A', 'Z'), ('_', '_'), ('a', 'z')]

def spaces : CharSet := ofRanges [('\t', '\r'), (' ', ' ')]

def named? : String → Option CharSet
  | "alnum" => some (ofRanges [('0', '9'), ('A', 'Z'), ('a', 'z')])
  | "alpha" => some (ofRanges [('A', 'Z'), ('a', 'z')])
  | "ascii" => some (.range '\x00' '\x7f')
  | "blank" => some (ofRanges [('\t', '\t'), (' ', ' ')])
  | "cntrl" => some (ofRanges [('\x00', '\x1f'), ('\x7f', '\x7f')])
  | "digit" => some digits
  | "graph" => some (.range '!' '~')
  | "lower" => some (.range 'a' 'z')
  | "print" => some (.range ' ' '~')
  | "punct" => some (ofRanges [('!', '/'), (':', '@'), ('[', '\x60'), ('\x7b', '~')])
  | "space" => some spaces
  | "upper" => some (.range 'A' 'Z')
  | "word" => some wordChars
  | "xdigit" => some (ofRanges [('0', '9'), ('A', 'F'), ('a', 'f')])
  | _ => none

end CharSet

end RenderCompiler
