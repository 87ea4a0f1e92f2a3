set_option autoImplicit false

namespace RenderCompiler

-- Where in a sequence a text stands. `command` and `parameters` are short sequences, `title` and
-- `message` hold text for the terminal itself.
inductive TerminalState where
  | plain
  | escape
  | command
  | parameters
  | title
  | message
deriving DecidableEq, Repr

namespace TerminalState

private def isLayout (c : Char) : Bool := c == '\t' || c == '\n' || c == '\x0c' || c == '\r'

private def isCancel (c : Char) : Bool := c == '\x18' || c == '\x1a'

private def isIn (low high : Nat) (c : Char) : Bool := low ≤ c.toNat && c.toNat ≤ high

def afterEscape (c : Char) : TerminalState :=
  match c with
  | '[' => .parameters
  | ']' => .title
  | 'P' => .message
  | 'X' => .message
  | '^' => .message
  | '_' => .message
  | c =>
    if isIn 0x20 0x2F c then .command
    else if isIn 0x30 0x7E c then .plain
    else .escape

def within (state : TerminalState) (c : Char) : TerminalState :=
  match state with
  | .plain => .plain
  | .escape => afterEscape c
  | .command => if isIn 0x30 0x7E c then .plain else .command
  | .parameters => if isIn 0x40 0x7E c then .plain else .parameters
  | .title => if c == '\x07' then .plain else .title
  | .message => .message

def next (state : TerminalState) (c : Char) : TerminalState × Bool :=
  if c == '\x1b' then (.escape, false)
  else match state with
    | .plain => (.plain, isLayout c || isIn 0x20 0x7E c || 0x80 ≤ c.toNat)
    | .title => (if isCancel c then .plain else within .title c, false)
    | .message => (if isCancel c then .plain else .message, false)
    | state =>
      -- A line end inside a short sequence breaks it off.
      if isLayout c then (.plain, true)
      else if isCancel c then (.plain, false)
      else (state.within c, false)

def shown : TerminalState → List Char → List Char
  | _, [] => []
  | state, c :: rest =>
    let (next, visible) := state.next c
    if visible then c :: shown next rest else shown next rest

end TerminalState

def withoutControls (text : List Char) : List Char := TerminalState.plain.shown text

end RenderCompiler
