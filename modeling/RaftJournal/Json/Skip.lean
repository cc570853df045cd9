import RaftJournal.Json.Token

/-! # Skipping JSON values

A member that no record knows is skipped with its value, however deep that value is. Skipping keeps
the open brackets on a stack and walks the tokens once (**`Skip.walk`**), so it ends on every input.
It is stricter than reading in one place, a comma before a closing bracket is a missing value, and
laxer in others: surrogates, bytes and the range of numbers inside a skipped value are not looked
at. -/

namespace RaftJournal.Json

namespace Skip

/-- An open bracket around the place of the walk. -/
inductive Frame
  | list
  | object
  deriving DecidableEq, Repr

/-- What the walk expects next. -/
inductive State
  /-- A value. -/
  | value
  /-- A key, after a comma in an object. -/
  | key
  /-- The colon after a key. -/
  | colon
  /-- The first element, the first key or the closing bracket. -/
  | first
  /-- A comma or the closing bracket. -/
  | next
  deriving DecidableEq, Repr

/-- The fault of a text that ends inside a bracket. -/
def Frame.cut : Frame → Fault
  | .list => .cutList
  | .object => .cutObject

/-- The fault of an element or a member with the wrong token after it. -/
def Frame.noSeparator : Frame → Fault
  | .list => .noListSeparator
  | .object => .noObjectSeparator

/-- The fault of a text that ends here. -/
def State.cut : State → List Frame → Fault
  | .value, _ => .cutValue
  | .key, _ => .cutObject
  | .colon, _ => .cutObject
  | .first, frame :: _ => frame.cut
  | .next, frame :: _ => frame.cut
  | _, [] => .cutValue

/-- One token of the walk: the new state and stack, no state when the value is complete, or a
fault. -/
def step (state : State) (stack : List Frame) (token : Token) :
    Except Fault (Option State × List Frame) :=
  match state with
  | .value => startValue stack token
  | .key => startKey stack token
  | .colon =>
    match token with
    | .colon => .ok (some .value, stack)
    | _ => .error .noColon
  | .first =>
    match stack, token with
    | .list :: outer, .rightBracket => .ok (closed outer)
    | .object :: outer, .rightBrace => .ok (closed outer)
    | .list :: _, _ => startValue stack token
    | .object :: _, _ => startKey stack token
    | [], _ => .error .noValue
  | .next =>
    match stack, token with
    | .list :: outer, .rightBracket => .ok (closed outer)
    | .object :: outer, .rightBrace => .ok (closed outer)
    | .list :: _, .comma => .ok (some .value, stack)
    | .object :: _, .comma => .ok (some .key, stack)
    | frame :: _, _ => .error frame.noSeparator
    | [], _ => .error .noValue
where
  /-- A value is complete: the bracket around it goes on, or the walk ends. -/
  closed (outer : List Frame) : Option State × List Frame :=
    if outer.isEmpty then (none, []) else (some .next, outer)
  /-- The token starts a value, and completes it unless it opens a bracket. -/
  startValue (stack : List Frame) (token : Token) : Except Fault (Option State × List Frame) :=
    match token with
    | .leftBracket => .ok (some .first, .list :: stack)
    | .leftBrace => .ok (some .first, .object :: stack)
    | .null | .boolean _ | .number _ | .text _ => .ok (closed stack)
    | .broken _ _ skipped => .error skipped
    | _ => .error .noValue
  /-- The token is a key. -/
  startKey (stack : List Frame) (token : Token) : Except Fault (Option State × List Frame) :=
    match token with
    | .text _ => .ok (some .colon, stack)
    | .broken .text _ skipped => .error skipped
    | _ => .error .keyNotText

/-- Walks to the end of the value and gives what follows it. -/
def walk (state : State) (stack : List Frame) : List Token → Except Fault (List Token)
  | [] => .error (state.cut stack)
  | token :: rest =>
    match step state stack token with
    | .error fault => .error fault
    | .ok (none, _) => .ok rest
    | .ok (some state, stack) => walk state stack rest

end Skip

/-- What follows the value at the front. -/
def skipValue (tokens : List Token) : Except Fault (List Token) := Skip.walk .value [] tokens

end RaftJournal.Json
