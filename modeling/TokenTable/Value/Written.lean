import TokenTable.Number.Binary64.Printer
import TokenTable.Number.Decimal.Printer
import TokenTable.Text.Quoted
import TokenTable.Value.Basic

/-! # Written values

The written form of a value shows its shape: texts are quoted, collections show their members
between brackets. The displayed form differs only for texts and decimals, which stand alone without
quotes. Integers are written whatever their length: the interpreter's limit of 4300 digits, which
may be set to another or lifted, bounds the reading of integers but is left out here. Main
statements: `display_text` and `written_list`. -/

namespace TokenTable.Value

def joined (separator : String) : List String → String
  | [] => ""
  | [part] => part
  | part :: rest => part ++ separator ++ joined separator rest

/-- The members of a tuple between brackets; a single member keeps a comma. -/
def tupleText : List String → String
  | [only] => "(" ++ only ++ ",)"
  | parts => "(" ++ joined ", " parts ++ ")"

/-- The members of a set between braces; the empty set has a name instead. -/
def setText (frozen : Bool) (parts : List String) : String :=
  let braced := "\x7b" ++ joined ", " parts ++ "\x7d"
  match frozen, parts with
  | false, [] => "set()"
  | true, [] => "frozenset()"
  | false, _ => braced
  | true, _ => "frozenset(" ++ braced ++ ")"

/-- The written form of a byte string. A view shows no content. -/
def bytesText (content : List UInt8) : BytesForm → String
  | .plain => Text.quoteBytes content
  | .growable => "bytearray(" ++ Text.quoteGrowable content ++ ")"
  | .view => "<memory>"

mutual

def written : Value → String
  | .null => "None"
  | .bool b => if b then "True" else "False"
  | .int n => toString n
  | .float x => x.shortestText
  | .decimal d => "Decimal('" ++ d.toText ++ "')"
  | .text s => Text.quote s
  | .bytes form content => bytesText content form
  | .list items => "[" ++ joined ", " (writtenList items) ++ "]"
  | .tuple items => tupleText (writtenList items)
  | .set frozen members => setText frozen (writtenList members)
  | .map entries => "\x7b" ++ joined ", " (writtenEntries entries) ++ "\x7d"
  | .wildcard => "ANY"
termination_by structural v => v

def writtenList : List Value → List String
  | [] => []
  | v :: rest => written v :: writtenList rest
termination_by structural vs => vs

def writtenEntries : List (Value × Value) → List String
  | [] => []
  | (k, v) :: rest => (written k ++ ": " ++ written v) :: writtenEntries rest
termination_by structural entries => entries

end

/-- The displayed form of a value. -/
def display : Value → String
  | .text s => s
  | .decimal d => d.toText
  | v => v.written

@[simp] theorem display_text (s : String) : display (.text s) = s := rfl

theorem writtenList_eq_map (vs : List Value) : writtenList vs = vs.map written := by
  induction vs with
  | nil => rfl
  | cons v rest ih => rw [writtenList, ih, List.map_cons]

theorem written_list (items : List Value) :
    written (.list items) = "[" ++ joined ", " (items.map written) ++ "]" := by
  rw [written, writtenList_eq_map]

end TokenTable.Value
