import RecordFilter.Text.Fold

/-! # Globs

Text is matched by globs: a star takes one or more characters, a question mark exactly one, and
neither takes a line feed; a backslash makes the next character stand for itself. A glob is read as
a row of tokens. Whether the tokens match is settled from the last token to the first: after each
step there is a row of flags, one for each suffix of the text, saying whether the tokens met so far
match that suffix.

The result is that of a search for the pattern of the glob by an engine for regular expressions.
Every pattern of a glob is well formed, and the engine is assumed to accept it: the bound that an
engine sets to the size of a compiled pattern, and the failure that would come of it, are left
out. -/

namespace RecordFilter

/-- A token of a glob. -/
inductive GlobToken where
  /-- Exactly this character. -/
  | char (c : Char)
  /-- Exactly one character other than a line feed. -/
  | one
  /-- One or more characters other than a line feed. -/
  | many
  deriving DecidableEq, Repr

namespace GlobToken

/-- The characters that a backslash must precede in a pattern to stand for themselves. -/
def metacharacters : Text :=
  ['\\', '.', '+', '*', '?', '(', ')', '|', '[', ']', '\x7b', '\x7d', '^', '$', '#', '&', '-', '~']

/-- A single character as a regular expression. -/
def charPattern (c : Char) : Text :=
  match c with
  | '\n' => ['\\', 'n']
  | '\t' => ['\\', 't']
  | '\r' => ['\\', 'r']
  | '\x08' => ['\\', 'x', '0', '8']
  | '\x0c' => ['\\', 'f']
  | '\x00' => ['\\', 'x', '0', '0']
  | c => if metacharacters.contains c then ['\\', c] else [c]

/-- A token as a regular expression. -/
def pattern : GlobToken → Text
  | char c => charPattern c
  | one => ['.']
  | many => ['.', '+']

/-- A token in which letters have lost their case. -/
def fold : GlobToken → GlobToken
  | char c => char (foldCase c)
  | one => one
  | many => many

/-- Put a token in front of others. The flags given are those of the tokens behind it, the flags
returned those of all of them; both are in the order of the suffixes, the whole text first. -/
def extend (token : GlobToken) : Text → List Bool → List Bool
  | c :: t, _ :: flags =>
    let rest := token.extend t flags
    let after := flags.headD false
    let flag := match token with
      | char d => c == d && after
      | one => c != '\n' && after
      | many => c != '\n' && (after || rest.headD false)
    flag :: rest
  | _, _ => [false]

end GlobToken

namespace Glob

/-- Read a glob. A backslash at the very end stands for nothing. -/
def tokens : Text → List GlobToken
  | '\\' :: c :: t => .char c :: tokens t
  | ['\\'] => []
  | '*' :: t => .many :: tokens t
  | '?' :: t => .one :: tokens t
  | c :: t => .char c :: tokens t
  | [] => []

/-- A glob as a regular expression, not anchored. -/
def pattern (glob : Text) : Text := (tokens glob).flatMap GlobToken.pattern

/-- The flags of a row of tokens over the suffixes of a text, from those of no tokens. -/
def flags (tokens : List GlobToken) (t : Text) (last : List Bool) : List Bool :=
  tokens.foldr (fun token flags => token.extend t flags) last

/-- The flags of no tokens, which match the empty suffix only. -/
def emptyFlags : Text → List Bool
  | [] => [true]
  | _ :: t => false :: emptyFlags t

/-- Whether tokens match the whole of a text. -/
def matchesWhole (tokens : List GlobToken) (t : Text) : Bool :=
  (flags tokens t (emptyFlags t)).headD false

/-- Whether tokens match some part of a text: they may start at every suffix, and what follows
them does not matter. -/
def matchesPart (tokens : List GlobToken) (t : Text) : Bool :=
  (flags tokens t (true :: t.map fun _ => true)).any id

/-- The tokens and the text as they are compared: folded if case does not count. -/
def prepared (ignoreCase : Bool) (glob t : Text) : List GlobToken × Text :=
  if ignoreCase then ((tokens glob).map GlobToken.fold, t.map foldCase) else (tokens glob, t)

/-- Whether a glob matches the whole of a text, where its anchored pattern is assumed to be accepted
whatever its size. -/
def equals (ignoreCase : Bool) (glob t : Text) : Bool :=
  let (tokens, t) := prepared ignoreCase glob t
  matchesWhole tokens t

/-- Whether a glob matches some part of a text, where its pattern is assumed to be accepted whatever
its size. -/
def contains (ignoreCase : Bool) (glob t : Text) : Bool :=
  let (tokens, t) := prepared ignoreCase glob t
  matchesPart tokens t

end Glob

end RecordFilter
