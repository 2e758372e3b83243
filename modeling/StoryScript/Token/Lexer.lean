/-
  Lexing: from source text to a tree of tokens.

  The source is read from left to right. Openers wait on a stack of frames, each
  with the tokens read since. A closer folds with the innermost opener it accepts;
  the openers above that one, and closers with nothing to close, turn back into
  text. So lexing never fails, and every character ends up in some token.
-/
import StoryScript.Notice
import StoryScript.Token.Rule

namespace StoryScript.Lexer

/-- An opener that waits, with the tokens read after it, newest first. -/
structure Frame where
  opener : Token
  inside : List Token := []

/-- How far lexing has come. -/
structure State where
  /-- Tokens outside every frame, newest first. -/
  outer : List Token := []
  /-- Open frames, innermost first. -/
  frames : List Frame := []
  /-- Characters that no rule has claimed, newest first. -/
  pending : List Char := []
  /-- The character just before. -/
  previous : Option Char := none
  /-- Offset of the next character. -/
  offset : Nat

/-- Turns an opener or closer without a partner back into text. An anonymous hook is not
optional, so its opener becomes an error. -/
def demote (t : Token) : Token :=
  if t.kind = .hookAnonymousFront then
    { t with
      kind := .error
      isFront := false
      message := some "This hook doesn't have a matching ]." }
  else { t with kind := .text, isFront := false }

/-- The notice for a token without a partner. -/
def unmatched (t : Token) : Notice :=
  .unmatched t.kind t.start

/-- The tokens of a frame that is given up, newest first. -/
def Frame.spill (f : Frame) : List Token :=
  f.inside ++ [demote f.opener]

/-- The kind that a closer and an opener fold into. Backticks fold only with as many. -/
def foldKind? (closer opener : Token) : Option Kind :=
  if closer.kind = .verbatimOpener && closer.depth ≠ opener.depth then none
  else closer.kind.fold? opener.kind

/-- The innermost frame that a closer accepts: the frames above it, the frame, the frames below
it, and the kind of the fold. -/
def splitFrames? (closer : Token) : List Frame → Option (List Frame × Frame × List Frame × Kind)
  | [] => none
  | f :: fs =>
    match foldKind? closer f.opener with
    | some kind => some ([], f, fs, kind)
    | none => (splitFrames? closer fs).map fun (above, g, below, kind) => (f :: above, g, below, kind)

/-- Folds a closer with a frame. The frames above it are given up and become part of the
contents. The fold ends where the closer ends. -/
def fold (closer : Token) (above : List Frame) (frame : Frame) (kind : Kind) : Token :=
  let opener := frame.opener
  let contents := (above.flatMap Frame.spill ++ frame.inside).reverse
  let inner := Token.textOf contents
  { closer with
    kind
    start := opener.start
    text := opener.text ++ inner ++ closer.text
    inner := some inner
    children := contents
    isFront := false
    mode := opener.mode
    name := closer.name <|> opener.name
    passage := closer.passage <|> opener.passage
    tag := closer.tag <|> opener.tag
    value := closer.value <|> opener.value
    message := closer.message <|> opener.message
    depth := max closer.depth opener.depth }

namespace State

/-- The mode at this point: that of the innermost opener, or of the whole text. -/
def mode (s : State) (whole : Mode) : Mode :=
  match s.frames with
  | [] => whole
  | f :: _ => f.opener.mode

/-- The kind of the token just before. -/
def last (s : State) : Option Kind :=
  if !s.pending.isEmpty then some .text
  else
    match s.frames with
    | [] => s.outer.head?.map (·.kind)
    | f :: _ => some ((f.inside.head?.getD f.opener).kind)

/-- The kinds of the open openers, but for one that stands directly before. -/
def openers (s : State) : List Kind :=
  let distant := match s.frames with
    | [] => []
    | f :: fs => if s.pending.isEmpty && f.inside.isEmpty then fs else f :: fs
  distant.map (·.opener.kind)

/-- What the rules look at here. -/
def situation (s : State) (whole : Mode) : Situation :=
  { mode := s.mode whole
    last := s.last
    afterWord := s.previous.any Text.isWord
    openers := s.openers }

/-- Adds a finished token to the innermost frame. -/
def add (s : State) (t : Token) : State :=
  match s.frames with
  | [] => { s with outer := t :: s.outer }
  | f :: fs => { s with frames := { f with inside := t :: f.inside } :: fs }

/-- Opens a frame. -/
def push (s : State) (t : Token) : State :=
  { s with frames := { opener := t } :: s.frames }

/-- Leaves a character to the text between tokens. -/
def defer (s : State) (c : Char) : State :=
  { s with pending := c :: s.pending, previous := some c, offset := s.offset + c.utf8Size }

/-- Turns the pending characters into a text token. -/
def flush (s : State) (whole : Mode) : State :=
  if s.pending.isEmpty then s
  else
    { s with pending := [] }.add
      { kind := .text
        start := s.offset - Text.width s.pending
        text := String.ofList s.pending.reverse
        mode := s.mode whole }

/-- Puts a token in its place: a closer folds if it can, an opener waits, and the rest is
finished. -/
def place (s : State) (t : Token) : Noted State :=
  match splitFrames? t s.frames with
  | some (above, f, below, kind) => do
    Noted.noteAll (above.reverse.map (unmatched ·.opener))
    return { s with frames := below }.add (fold t above f kind)
  | none =>
    if t.isFront then return s.push t
    else if t.kind.isCloser then do
      Noted.note (unmatched t)
      return s.add (demote t)
    else return s.add t

/-- Moves past a match. -/
def advance (s : State) (text : List Char) : State :=
  { s with previous := text.getLast?, offset := s.offset + Text.width text }

/-- Ends lexing: every frame that is still open is given up. -/
def finish (s : State) (whole : Mode) : Noted (List Token) := do
  let s := s.flush whole
  Noted.noteAll (s.frames.reverse.map (unmatched ·.opener))
  return (s.frames.flatMap Frame.spill ++ s.outer).reverse

end State

/-- The token of a match. -/
def build (rule : Rule) (c : Capture) (start : Nat) (children : List Token) : Token :=
  { toDetail := c.detail
    kind := rule.kind
    start
    text := String.ofList c.text
    inner := c.inside.map fun i => String.ofList i.body
    children
    isFront := rule.isFront
    mode := rule.scope.innerMode }

/-- Lexes the rest of a text whose own mode is `whole`. -/
def lexFrom (whole : Mode) (s : State) (source : List Char) : Noted (List Token) :=
  match source with
  | [] => s.finish whole
  | c :: cs =>
    match _found : Rule.firstMatch (s.situation whole) (c :: cs) with
    | none => lexFrom whole (s.defer c) cs
    | some (rule, capture) => do
      let children ← match _held : capture.inside with
        | none => pure []
        | some i => lexFrom rule.scope.innerMode { offset := s.offset + Text.width i.lead } i.body
      let token := build rule capture s.offset children
      let s ← (s.flush whole).place token
      lexFrom whole (s.advance capture.text) ((c :: cs).drop capture.text.length)
termination_by source.length
decreasing_by
  · simp
  · have := List.length_pos_iff.2 (Rule.text_of_firstMatch _found).1
    simp only [List.length_drop, List.length_cons]
    omega
  · exact Rule.inside_of_firstMatch _found _held

mutual

/-- Joins adjacent text tokens that have no children, throughout the tree below a token. -/
def mergeText : Token → Token
  | { toDetail, kind, start, text, stop, inner, children, isFront, mode } =>
    { toDetail, kind, start, text, stop, inner, children := mergeAll children, isFront, mode }

/-- Joins adjacent text tokens that have no children; the first of a run keeps its details. -/
def mergeAll : List Token → List Token
  | [] => []
  | t :: ts =>
    let t := mergeText t
    match mergeAll ts with
    | [] => [t]
    | u :: us =>
      if t.kind = .text && u.kind = .text && t.children.isEmpty && u.children.isEmpty then
        { t with text := t.text ++ u.text, stop := u.stop } :: us
      else t :: u :: us

end

/-- Lexes a text in a mode. The root covers all of it. -/
def lexIn (mode : Mode) (source : String) : Noted Token := do
  let children ← lexFrom mode { offset := 0 } source.toList
  return {
    kind := .root
    text := source
    inner := some source
    children := mergeAll children
    mode }

end StoryScript.Lexer

namespace StoryScript

/-- Lexes prose with markup. -/
def lex (source : String) : Token :=
  (Lexer.lexIn .markup source).value

/-- Lexes an expression, as if it stood inside a call. -/
def lexExpression (source : String) : Token :=
  (Lexer.lexIn .code source).value

end StoryScript
