import TemplatedSql.Number.Decimal
import TemplatedSql.Text.Quoted
import TemplatedSql.Tree

/-!
# Values

An expression has a value of one of seven kinds. Functions compare by identity: a macro by the place of
its definition and the scope it was defined in, a method by the attribute access that made it, a
function of the host by its key. All other values compare by what they hold. The entries of a mapping
are kept in the order of their keys' code points, and no key comes twice.
-/

namespace TemplatedSql

/-- A text that was rendered: the one given with the given number, or the library template of a name. -/
inductive Origin
  | given (serial : Nat)
  | library (name : String)
deriving DecidableEq

/-- The place of a block in a template: the text it stands in, and the steps down to it, innermost
first. A step is the number of tags before it in its body. -/
structure Address where
  origin : Origin
  path : List Nat
deriving DecidableEq

/-- The functions that every template may call. -/
inductive Builtin
  | range
  | len
  | log
  | raiseError
deriving DecidableEq

/-- The methods of strings. -/
inductive StringMethod
  | upper
  | lower
  | strip
  | replace
  | split
  | startsWith
  | endsWith
  | join
deriving DecidableEq

/-- The methods of mappings. -/
inductive MappingMethod
  | keys
  | values
  | items
  | get
deriving DecidableEq

/-- What a template calls a built-in function. -/
def Builtin.name : Builtin → String
  | range => "range"
  | len => "len"
  | log => "log"
  | raiseError => "raise_error"

/-- What a template calls a method of strings. -/
def StringMethod.name : StringMethod → String
  | upper => "upper"
  | lower => "lower"
  | strip => "strip"
  | replace => "replace"
  | split => "split"
  | startsWith => "startswith"
  | endsWith => "endswith"
  | join => "join"

/-- What a template calls a method of mappings. -/
def MappingMethod.name : MappingMethod → String
  | keys => "keys"
  | values => "values"
  | items => "items"
  | get => "get"

/-- The built-in functions. -/
def Builtin.all : List Builtin := [range, len, log, raiseError]

/-- The methods of strings. -/
def StringMethod.all : List StringMethod :=
  [upper, lower, strip, replace, split, startsWith, endsWith, join]

/-- The methods of mappings. -/
def MappingMethod.all : List MappingMethod := [keys, values, items, get]

mutual

/-- A value. -/
inductive Value
  | undefined
  | boolean (value : Bool)
  | number (value : Float)
  | string (value : String)
  | list (items : List Value)
  | mapping (entries : List (String × Value))
  | function (value : Function)

/-- A function: built in, a method taken from a value, given by the host, or a macro with the scope it
was defined in. `serial` tells apart the methods taken by different attribute accesses. -/
inductive Function
  | builtin (builtin : Builtin)
  | stringMethod (serial : Nat) (receiver : String) (method : StringMethod)
  | mappingMethod (serial : Nat) (receiver : List (String × Value)) (method : MappingMethod)
  | host (key : Nat) (name : String)
  | defined (definition : MacroDef) (address : Address) (scope : Nat)

end

/-- What tells one function from another. A method is told by the attribute access that made it, and a macro by its
definition and its scope; the name of either belongs to that. A function of the host is told by its key alone, by
whatever name it goes. -/
inductive Identity
  | builtin (builtin : Builtin)
  | method (serial : Nat) (name : String)
  | host (key : Nat)
  | defined (name : String) (address : Address) (scope : Nat)
deriving DecidableEq

namespace Function

/-- What tells the function from others. -/
def identity : Function → Identity
  | builtin b => .builtin b
  | stringMethod n _ m => .method n m.name
  | mappingMethod n _ m => .method n m.name
  | host key _ => .host key
  | defined d address scope => .defined d.name address scope

/-- The name of the function. -/
def name : Function → String
  | builtin b => b.name
  | stringMethod _ _ m => m.name
  | mappingMethod _ _ m => m.name
  | host _ name => name
  | defined d _ _ => d.name

/-- Whether the function is a macro. -/
def isDefined : Function → Bool
  | defined .. => true
  | _ => false

/-- Whether two functions are the same one. -/
def same (f g : Function) : Bool :=
  f.identity == g.identity

/-- The text of a function. -/
def text (f : Function) : String :=
  if f.isDefined then "<macro " ++ f.name ++ ">" else "<function " ++ f.name ++ ">"

end Function

namespace Value

/-- The name of the value's kind. -/
def kind : Value → String
  | undefined => "undefined"
  | boolean _ => "boolean"
  | number _ => "number"
  | string _ => "string"
  | list _ => "list"
  | mapping _ => "mapping"
  | function _ => "function"

/-- Whether there is no value. -/
def isUndefined : Value → Bool
  | undefined => true
  | _ => false

/-- Whether a condition takes the value for true: it is not empty, zero, undefined or no number. -/
def truthy : Value → Bool
  | undefined => false
  | boolean b => b
  | number n => n != 0.0 && !Number.isNaN n
  | string s => !s.isEmpty
  | list items => !items.isEmpty
  | mapping entries => !entries.isEmpty
  | function _ => true

mutual

/-- Whether two values are equal. -/
def same : Value → Value → Bool
  | undefined, undefined => true
  | boolean a, boolean b => a == b
  | number a, number b => a == b
  | string a, string b => a == b
  | list a, list b => sameItems a b
  | mapping a, mapping b => sameEntries a b
  | function a, function b => a.same b
  | _, _ => false

/-- Whether two lists have equal items. -/
def sameItems : List Value → List Value → Bool
  | [], [] => true
  | a :: as, b :: bs => a.same b && sameItems as bs
  | _, _ => false

/-- Whether two mappings have the same keys with equal values. -/
def sameEntries : List (String × Value) → List (String × Value) → Bool
  | [], [] => true
  | (k, a) :: as, (l, b) :: bs => k == l && a.same b && sameEntries as bs
  | _, _ => false

end

mutual

/-- The text of a value; `inner` is set inside a list or a mapping, where strings are quoted. -/
def textIn (inner : Bool) : Value → String
  | undefined => ""
  | boolean b => if b then "TRUE" else "FALSE"
  | number n => Number.text n
  | string s => if inner then Text.quote s else s
  | list [] => "[]"
  | list (v :: vs) => itemsText ("[" ++ v.textIn true) vs ++ "]"
  | mapping [] => "\x7b\x7d"
  | mapping ((k, v) :: es) => entriesText ("\x7b" ++ Text.quote k ++ ": " ++ v.textIn true) es ++ "\x7d"
  | function f => f.text

/-- The text of further items after `text`. -/
def itemsText (text : String) : List Value → String
  | [] => text
  | v :: vs => itemsText (text ++ ", " ++ v.textIn true) vs

/-- The text of further entries after `text`. -/
def entriesText (text : String) : List (String × Value) → String
  | [] => text
  | (k, v) :: es => entriesText (text ++ ", " ++ Text.quote k ++ ": " ++ v.textIn true) es

end

/-- The text that a value is rendered as. -/
def text (v : Value) : String :=
  v.textIn false

/-- The entry put in its place by key, in place of one with the same key. -/
def insertEntry (key : String) (v : Value) : List (String × Value) → List (String × Value)
  | [] => [(key, v)]
  | (k, w) :: es =>
    if key < k then (key, v) :: (k, w) :: es
    else if key = k then (key, v) :: es
    else (k, w) :: insertEntry key v es

/-- The mapping with the given entries; of two with one key the later counts. -/
def ofEntries (entries : List (String × Value)) : Value :=
  mapping (entries.foldl (fun es e => insertEntry e.1 e.2 es) [])

/-- The value of a literal. -/
def ofLiteral : Literal → Value
  | .boolean b => boolean b
  | .number n => number n
  | .string s => string s

end Value

instance : Inhabited Value := ⟨.undefined⟩

end TemplatedSql
