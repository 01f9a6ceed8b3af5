import LabelMail.Toml.Scalar

/-!
Documents of TOML. A document is read line by line: a line is a header, which says where the
following ones belong, or a key with its value, or it holds nothing.
-/
namespace LabelMail.Toml

open Reader

/-- Arrays and tables between braces are nested less deeply than this. -/
def depthLimit : Nat := 80

def bareChar (c : Char) : Bool :=
  c.isAlphanum || c == '_' || c == '-'

def bareKey : Reader String := do
  let first ← one bareChar
  return String.ofList (first :: (← run bareChar))

def simpleKey : Reader String :=
  String.ofList <$> (Quoted.singleLine '"' <|> Quoted.singleLine '\'') <|> bareKey

/-- A key with dots as the path in front of its last part, and that part. -/
def key : Reader (List String × String) := do
  let parts ← separated (do blanks; let k ← simpleKey; blanks; return k) (word ['.'])
  match parts.getLast? with
  | some last => if parts.length < depthLimit then return (parts.dropLast, last) else failure
  | none => failure

/-- Blanks, line feeds and comments, which may stand between the values of an array. -/
def gap : Reader Unit :=
  discard (many (discard (one blank) <|> lineFeed <|> (do comment; lineFeed)))

def array (value : Reader Value) : Reader Value := do
  word ['[']
  let items ← optional (separated (do gap; let v ← value; gap; return v) (word [',']))
  if items.isSome then discard (optional (word [',']))
  gap
  word [']']
  return .array false (items.getD [])

def field (value : Reader Value) : Reader (List String × String × Value) := do
  let (path, last) ← key
  word ['=']
  blanks
  let v ← value
  blanks
  return (path, last, v)

def inlineTable (value : Reader Value) : Reader Value := do
  word ['\x7b']
  let fields ← optional (separated (field value) (word [',']))
  blanks
  word ['\x7d']
  let table := (fields.getD []).foldlM (fun t (path, last, v) => Value.addField path last v t)
    (Value.emptyTable .inline)
  StateT.lift table

/-- A value in which arrays and tables are nested at most so deeply. -/
def value : Nat → Reader Value
  | 0 => scalar
  | depth + 1 => array (value depth) <|> inlineTable (value depth) <|> scalar

inductive Line where
  | nothing
  | field (path : List String) (key : String) (v : Value)
  | table (path : List String) (key : String)
  | element (path : List String) (key : String)

def line : Reader Line := do
  blanks
  (do comment; lineFeed <|> finished; return .nothing)
    <|> (do lineFeed; return .nothing)
    <|> (do
      word ['[', '[']
      let (path, last) ← key
      word [']', ']']
      lineRest
      return .element path last)
    <|> (do
      word ['[']
      let (path, last) ← key
      word [']']
      lineRest
      return .table path last)
    <|> (do
      let (path, last, v) ← field (value (depthLimit - 1))
      lineRest
      return .field path last v)

/-- The document so far, and the path to the table that the last header names. -/
structure Draft where
  root : Value
  current : List String

def Draft.enter (d : Draft) : Line → Option Draft
  | .nothing => some d
  | .field path key v => do
    return { d with root := ← d.root.within false (Value.addField path key v) d.current }
  | .table path key => do
    return ⟨← d.root.stateTable path key, path ++ [key]⟩
  | .element path key => do
    return ⟨← d.root.appendTable path key, path ++ [key]⟩

def byteOrderMark : Char := Char.ofNat 0xFEFF

def document : Reader Value := do
  discard (optional (one (· == byteOrderMark)))
  let lines ← many line
  blanks
  finished
  let d ← StateT.lift (lines.foldlM Draft.enter ⟨.emptyTable .stated, []⟩)
  return d.root

def parse (text : String) : Option Value :=
  (document text.toList).map (·.1)

end LabelMail.Toml
