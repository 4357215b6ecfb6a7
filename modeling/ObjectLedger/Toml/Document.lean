import ObjectLedger.Toml.Quoted

/-! # Documents of TOML

A document is read into what it holds at each path. A table is open as long as only its
contents have been named; a table made by a dotted key stays with dotted keys. A name is
given once: neither a value nor a table that was declared can be declared again.
-/

namespace ObjectLedger.Toml

/-- A step from a table to what it holds, or from an array of tables to one of them. -/
inductive Step where
  | name (key : String)
  | item (index : Nat)
deriving DecidableEq, Repr

/-- The way from the root of a document to something that it holds. -/
abbrev Path := List Step

/-- What a document holds at a path. -/
inductive Holding where
  | value (value : Value)
  /-- A table. It is open until it is declared, and dotted if a dotted key made it. -/
  | table (isOpen isDotted : Bool)
  /-- An array of tables, declared one after the other. -/
  | tables (count : Nat)
deriving DecidableEq, Repr

/-- What a document holds. -/
abbrev Holdings := List (Path × Holding)

namespace Holdings

/-- What is held at a path. -/
def find? (holdings : Holdings) (path : Path) : Option Holding :=
  (List.find? (fun entry => entry.1 = path) holdings).map (·.2)

/-- The way along some keys, through open tables and the last tables of arrays. Missing tables
are made on the way. A dotted key may not enter a declared table. -/
def descend (isDotted : Bool) : Holdings → Path → List String → Option (Holdings × Path)
  | holdings, path, [] => some (holdings, path)
  | holdings, path, key :: keys =>
    let next := path ++ [.name key]
    match holdings.find? next with
    | none => descend isDotted ((next, .table true isDotted) :: holdings) next keys
    | some (.value _) => none
    | some (.tables count) => descend isDotted holdings (next ++ [.item (count - 1)]) keys
    | some (.table isOpen _) =>
      if isDotted && !isOpen then none else descend isDotted holdings next keys

/-- The holdings with a value under a dotted key below a table. -/
def setValue (holdings : Holdings) (table : Path) (keys : List String) (value : Value) :
    Option Holdings := do
  let last ← keys.getLast?
  let (holdings, path) ← descend true holdings table keys.dropLast
  if keys.dropLast ≠ [] ∧ holdings.find? path ≠ some (.table true true) then none
  else
    let place := path ++ [.name last]
    if (holdings.find? place).isSome then none else some ((place, .value value) :: holdings)

/-- The holdings with a declared table, and its path. -/
def declareTable (holdings : Holdings) (keys : List String) : Option (Holdings × Path) := do
  let last ← keys.getLast?
  let (holdings, path) ← descend false holdings [] keys.dropLast
  let place := path ++ [.name last]
  match holdings.find? place with
  | none | some (.table true false) => some ((place, .table false false) :: holdings, place)
  | _ => none

/-- The holdings with one more table of an array, and its path. -/
def declareItem (holdings : Holdings) (keys : List String) : Option (Holdings × Path) := do
  let last ← keys.getLast?
  let (holdings, path) ← descend false holdings [] keys.dropLast
  let place := path ++ [.name last]
  let count ← match holdings.find? place with
    | none => some 0
    | some (.tables count) => some count
    | _ => none
  let item := place ++ [.item count]
  some ((item, .table false false) :: (place, .tables (count + 1)) :: holdings, item)

end Holdings

/-- Whether a key may contain a character without quotes. -/
def isKeyChar (c : Char) : Bool := c.isAlphanum || c = '_' || c = '-'

/-- The key at the start of a text. -/
def takeKey? (cs : List Char) : Option (String × List Char) :=
  match cs with
  | '\x22' :: rest => line? '\x22' rest
  | '\'' :: rest => line? '\'' rest
  | _ =>
    let key := cs.takeWhile isKeyChar
    if key.isEmpty then none else some (String.ofList key, cs.dropWhile isKeyChar)

/-- The number of levels that keys and values may be nested. -/
def depthLimit : Nat := 80

/-- The keys of a dotted key, with the spaces around them. -/
def takeKeys? : (depth : Nat) → List Char → Option (List String × List Char)
  | 0, _ => none
  | depth + 1, cs => do
    let (key, rest) ← takeKey? (cs.dropWhile isSpace)
    match rest.dropWhile isSpace with
    | '.' :: rest =>
      let (keys, rest) ← takeKeys? depth rest
      some (key :: keys, rest)
    | rest => some ([key], rest)

/-- A comment and the line end that follows it left out. -/
def skipComment (cs : List Char) : List Char :=
  match cs with
  | '#' :: rest => rest.dropWhile isLineChar
  | _ => cs

/-- Blanks, line ends and comments left out. The fuel bounds their number. -/
def skipLines : (fuel : Nat) → List Char → List Char
  | 0, cs => cs
  | fuel + 1, cs =>
    match skipBlankLines cs with
    | '#' :: rest => skipLines fuel (rest.dropWhile isLineChar)
    | rest => rest

mutual

/-- The value at the start of a text, nested to some depth. The fuel bounds the number of
values and separators. -/
def takeValue? : (fuel depth : Nat) → List Char → Option (Value × List Char)
  | 0, _, _ => none
  | fuel + 1, depth, cs =>
    match cs, depth with
    | '\x22' :: _, _ => (takeText? '\x22' cs).map fun (text, rest) => (.text text, rest)
    | '\'' :: _, _ => (takeText? '\'' cs).map fun (text, rest) => (.text text, rest)
    | '[' :: rest, depth + 1 => (takeItems? fuel depth rest).map (.other, ·)
    | '\x7b' :: rest, depth + 1 =>
      match rest.dropWhile isSpace with
      | '\x7d' :: rest => some (.other, rest)
      | _ => (takeFields? fuel depth [] rest).map (.other, ·)
    | _, _ => takeScalar? cs

/-- What follows an array, given what follows its opening bracket or a separator. -/
def takeItems? : (fuel depth : Nat) → List Char → Option (List Char)
  | 0, _, _ => none
  | fuel + 1, depth, cs =>
    match skipLines cs.length cs with
    | ']' :: rest => some rest
    | inside => do
      let (_, rest) ← takeValue? fuel depth inside
      match skipLines rest.length rest with
      | ',' :: rest => takeItems? fuel depth rest
      | ']' :: rest => some rest
      | _ => none

/-- What follows a table between braces, given what follows the opening brace or a separator,
and what the table holds so far. -/
def takeFields? : (fuel depth : Nat) → Holdings → List Char → Option (List Char)
  | 0, _, _, _ => none
  | fuel + 1, depth, holdings, cs => do
    let (keys, rest) ← takeKeys? (depthLimit - 1) cs
    let rest ← after? '=' rest
    let (value, rest) ← takeValue? fuel depth (rest.dropWhile isSpace)
    let holdings ← holdings.setValue [] keys value
    match rest.dropWhile isSpace with
    | ',' :: rest => takeFields? fuel depth holdings rest
    | '\x7d' :: rest => some rest
    | _ => none

end

/-- What follows the end of a line, after blanks and a comment. -/
def endLine? (cs : List Char) : Option (List Char) :=
  match skipComment (cs.dropWhile isSpace) with
  | [] => some []
  | rest => afterLine? rest

/-- The keys of a header, given what follows its opening brackets and what closes it. -/
def takeHeader? (closing : List Char) (cs : List Char) : Option (List String × List Char) := do
  let (keys, rest) ← takeKeys? (depthLimit - 1) cs
  if closing.isPrefixOf rest then
    let rest ← endLine? (rest.drop closing.length)
    some (keys, rest)
  else none

/-- What a document holds, given what it holds so far and the table that is being filled. The
fuel bounds the number of lines. -/
def readLines? : (fuel : Nat) → Holdings → Path → List Char → Option Holdings
  | 0, _, _, _ => none
  | fuel + 1, holdings, table, cs =>
    match cs.dropWhile isSpace with
    | [] => some holdings
    | '[' :: '[' :: rest => do
      let (keys, rest) ← takeHeader? [']', ']'] rest
      let (holdings, table) ← holdings.declareItem keys
      readLines? fuel holdings table rest
    | '[' :: rest => do
      let (keys, rest) ← takeHeader? [']'] rest
      let (holdings, table) ← holdings.declareTable keys
      readLines? fuel holdings table rest
    | line =>
      match endLine? line with
      | some rest => readLines? fuel holdings table rest
      | none => do
        let (keys, rest) ← takeKeys? (depthLimit - 1) line
        let rest ← after? '=' rest
        let rest := rest.dropWhile isSpace
        let (value, rest) ← takeValue? (2 * rest.length + 2) (depthLimit - 1) rest
        let holdings ← holdings.setValue table keys value
        readLines? fuel holdings table (← endLine? rest)

/-- What a document holds. A byte-order mark at its start is left out. -/
def read? (text : String) : Option Holdings :=
  let cs := text.toList
  let cs := match cs with
    | '\uFEFF' :: rest => rest
    | _ => cs
  readLines? (cs.length + 1) [] [] cs

end ObjectLedger.Toml
