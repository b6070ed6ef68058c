import RequestFile.Json.Scalar

/-!
Reading values of a known shape.

A reader of a shape looks at the first character of a value. One that begins another kind of value
is a mismatch, after the value itself has been read if it is a word, a number or a string.

* `Reader.skipValue`: passes over a value of any shape.
* `Reader.array`, `Reader.members`: the items of an array, the members of an object.
* `Reader.record`: an object with known keys. Each may stand once, other keys are passed over, and
  the values may also be given as an array in the order of the keys.
* `readText`: a value that makes up a whole text.
-/

namespace RequestFile.Json

/-! ### Values of any shape -/

/-- A composite value that is still open. -/
inductive Bracket where
  | square
  | curly
deriving DecidableEq, Repr

namespace Bracket

/-- The character that closes a composite. -/
def closer : Bracket → Char
  | square => ']'
  | curly => '}'

end Bracket

/-- What the next character may begin. -/
inductive Due where
  | value
  /-- A value, or the end of an array. -/
  | item
  | key
  /-- A key, or the end of an object. -/
  | member
  | colon
  /-- A comma, or the end of the innermost composite. -/
  | more
deriving DecidableEq, Repr

/-- Where the skipping of a value stands. -/
structure Skip where
  /-- The composites that are open, from the inside. -/
  brackets : List Bracket
  due : Due

namespace Skip

/-- After a value: the end, if no composite is open. -/
def afterValue (brackets : List Bracket) : Reader (Skip ⊕ Unit) :=
  if brackets.isEmpty then Reader.done () else Reader.again ⟨brackets, .more⟩

/-- Goes on with a value that begins with `c`. -/
def value (brackets : List Bracket) (c : Char) : Reader (Skip ⊕ Unit) :=
  match c with
  | '[' => Reader.again ⟨.square :: brackets, .item⟩
  | '{' => Reader.again ⟨.curly :: brackets, .member⟩
  | '"' => do
    Reader.skipString
    afterValue brackets
  | 'n' => do
    Reader.word ['u', 'l', 'l']
    afterValue brackets
  | 't' => do
    Reader.word ['r', 'u', 'e']
    afterValue brackets
  | 'f' => do
    Reader.word ['a', 'l', 's', 'e']
    afterValue brackets
  | c => do
    let _ ← Reader.number .malformed c
    afterValue brackets

/-- Goes on after a key that begins with `c`. -/
def key (brackets : List Bracket) (c : Char) : Reader (Skip ⊕ Unit) := do
  if c == '"' then
    Reader.skipString
    Reader.again ⟨brackets, .colon⟩
  else
    Reader.fail .malformed

/-- Goes on after a comma or a closer `c`. -/
def more (brackets : List Bracket) (c : Char) : Reader (Skip ⊕ Unit) :=
  match brackets with
  | [] => Reader.done ()
  | b :: outer =>
    if c == b.closer then afterValue outer
    else if c == ',' then
      match b with
      | .square => Reader.again ⟨brackets, .value⟩
      | .curly => Reader.again ⟨brackets, .key⟩
    else Reader.fail .malformed

/-- Goes on after one more character. -/
def step (s : Skip) (c : Char) : Reader (Skip ⊕ Unit) :=
  if Reader.isSpace c then Reader.again s
  else
    match s.due with
    | .value => value s.brackets c
    | .item => if c == ']' then afterValue s.brackets.tail else value s.brackets c
    | .key => key s.brackets c
    | .member => if c == '}' then afterValue s.brackets.tail else key s.brackets c
    | .colon =>
      if c == ':' then Reader.again ⟨s.brackets, .value⟩ else Reader.fail .malformed
    | .more => more s.brackets c

end Skip

namespace Reader

/-- Passes over a value of any shape. -/
def skipValue : Reader Unit :=
  loop Skip.step ⟨[], .value⟩

/-! ### Words and strings -/

/-- A value that is not of the shape looked for. A word, a number or a string has to be well formed;
a composite is not looked into. -/
def otherShape : Reader α := do
  let c ← next .truncated
  match c with
  | '[' => fail .mismatched
  | '{' => fail .mismatched
  | '"' =>
    let _ ← stringBody
    fail .mismatched
  | 'n' =>
    word ['u', 'l', 'l']
    fail .mismatched
  | 't' =>
    word ['r', 'u', 'e']
    fail .mismatched
  | 'f' =>
    word ['a', 'l', 's', 'e']
    fail .mismatched
  | c =>
    let d ← number .truncated c
    fail (if d.isHuge then .malformed else .mismatched)

/-- A string. -/
def string : Reader String := do
  match ← look with
  | '"' =>
    drop 1
    stringBody
  | _ => otherShape

/-- A truth value. -/
def bool : Reader Bool := do
  match ← look with
  | 't' =>
    word ['t', 'r', 'u', 'e']
    return true
  | 'f' =>
    word ['f', 'a', 'l', 's', 'e']
    return false
  | _ => otherShape

/-- A value, or the word `null` in its place. -/
def optional (r : Reader α) : Reader (Option α) := do
  match ← look with
  | 'n' =>
    word ['n', 'u', 'l', 'l']
    return none
  | _ => return some (← r)

/-! ### Arrays -/

/-- The items of an array after the first one. -/
def moreItems (item : Reader α) (first : α) : Reader (List α) :=
  loop (fun items c =>
    if isSpace c then again items
    else if c == ']' then done items
    else if c == ',' then do
      again (items ++ [← item])
    else fail .malformed) [first]

/-- An array. -/
def array (item : Reader α) : Reader (List α) := do
  match ← look with
  | '[' =>
    drop 1
    match ← look with
    | ']' =>
      drop 1
      return []
    | _ => moreItems item (← item)
  | _ => otherShape

/-! ### Objects -/

/-- The value of a member, after its key. -/
def memberValue (r : Reader α) : Reader α := do
  mark ':'
  r

/-- The members of an object after its opening brace. The reader `onKey` goes on after a key. -/
def members (onKey : σ → String → Reader σ) (s : σ) : Reader σ := do
  match ← look with
  | '}' =>
    drop 1
    return s
  | _ =>
    loop (fun s c =>
      if isSpace c then again s
      else if c == '}' then done s
      else if c == ',' then do
        again (← member s)
      else fail .malformed) (← member s)
where
  /-- One member. -/
  member (s : σ) : Reader σ := do
    mark '"'
    let key ← stringBody
    onKey s key

/-- An object, its members handled in order. -/
def object (onKey : σ → String → Reader σ) (s : σ) : Reader σ := do
  match ← look with
  | '{' =>
    drop 1
    members onKey s
  | _ => otherShape

/-! ### Records -/

/-- A key of a record, and how its value is read into a draft of it. -/
structure Field (δ : Type) where
  key : String
  read : δ → Reader δ

/-- Goes on after a key of a record, given the keys that stood before it: a known key may stand
once. -/
def onFieldKey (fields : List (Field δ)) : List String × δ → String → Reader (List String × δ)
  | (seen, draft), key =>
    match fields.find? (·.key == key) with
    | none => do
      memberValue skipValue
      return (seen, draft)
    | some f =>
      if seen.contains key then fail .mismatched
      else do
        return (key :: seen, ← memberValue (f.read draft))

/-- The fields of a record given in order, after a first one. -/
def moreFields : List (Field δ) → δ → Reader δ
  | [], draft => do
    mark ']'
    return draft
  | f :: fs, draft => do
    match ← look with
    | ']' =>
      drop 1
      return draft
    | ',' =>
      drop 1
      moreFields fs (← f.read draft)
    | _ => fail .malformed

/-- The fields of a record given in order, after the opening bracket. -/
def orderedFields (fields : List (Field δ)) (draft : δ) : Reader δ := do
  match ← look, fields with
  | ']', _ =>
    drop 1
    return draft
  | _, [] => fail .malformed
  | _, f :: fs => moreFields fs (← f.read draft)

/-- The fields of a record: an object with its keys, or an array of its values. -/
def recordFields (fields : List (Field δ)) (draft : δ) : Reader δ := do
  match ← look with
  | '{' =>
    drop 1
    let (_, draft) ← members (onFieldKey fields) ([], draft)
    return draft
  | '[' =>
    drop 1
    orderedFields fields draft
  | _ => otherShape

/-- A record. A draft that `finish` refuses lacks a field. -/
def record (fields : List (Field δ)) (draft : δ) (finish : δ → Option α) : Reader α := do
  match finish (← recordFields fields draft) with
  | some a => return a
  | none => fail .mismatched

end Reader

/-- Reads a value that makes up a whole text, spaces around it apart. -/
def readText (r : Reader α) (text : String) : Except Fault α :=
  match r.run text.toList with
  | .error e => .error e
  | .ok (a, rest) => if rest.all Reader.isSpace then .ok a else .error .malformed

end RequestFile.Json
