import Switchboard.LogFilter.FieldValue
import Switchboard.LogFilter.Level

/-!
# Log Directives

One part of a log filter. A directive gives a level for everything or for one
target, for spans of one name, or for spans with a field, whose value it may
ask for.

Directives are ordered by how specific they are, the most specific first: a
longer target before a shorter one, a named span before an unnamed one, a field
before none, and a field with a value before one without. Two directives are
equal in that order iff they are about the same things, whatever their levels.

## Main definitions

* `LogDirective`: A directive.
* `LogDirective.step`, `LogDirective.read?`: Reading a directive.
* `LogDirective.text`: The text of a directive.
* `FieldMatch`: What is asked of a field.
* `LogDirective.order`: The order of directives.

## Theorems

* `LogDirective.order_level`: The level has no part in the order.
-/

namespace Switchboard

/-- What is asked of a field of spans. -/
structure FieldMatch where
  name : String
  /-- What is asked of the value, if anything is. -/
  value : Option FieldValue
  deriving DecidableEq

namespace FieldMatch

/-- What a text asks of a field: its name, and a value after an equals sign. Nothing after a
    second equals sign counts. -/
def read? (s : String) : Option FieldMatch :=
  if s.isEmpty then none
  else
    match s.toList.span (· != '=') with
    | (name, []) => some ⟨String.ofList name, none⟩
    | (name, _ :: rest) =>
      (FieldValue.read? (String.ofList (rest.takeWhile (· != '=')))).map fun value =>
        ⟨String.ofList name, some value⟩

/-- The text of what is asked of a field. -/
def text (f : FieldMatch) : String :=
  match f.value with
  | none => f.name
  | some value => f.name ++ "=" ++ value.text

/-- The order of values that may be missing, after it is known that both are or none is. -/
def orderValues : Option FieldValue → Option FieldValue → Ordering
  | some a, some b => a.order b
  | _, _ => .eq

/-- The order of what is asked of fields: a value before none, then by name and by value. -/
def order (a b : FieldMatch) : Ordering :=
  (compare a.value.isSome b.value.isSome).then <| (compare a.name b.name).then <|
    orderValues a.value b.value

theorem order_self (a : FieldMatch) : a.order a = .eq := by
  cases h : a.value <;> simp [order, orderValues, h, FieldValue.order_self]

end FieldMatch

/-- What a part of a filter says. -/
structure LogDirective where
  level : LogLevel
  target : Option String
  /-- The name of the spans. -/
  inSpan : Option String
  /-- What is asked of a field of the spans. -/
  field : Option FieldMatch
  deriving DecidableEq

namespace LogDirective

/-- Where the reading of a directive is. Positions are counted in bytes. -/
inductive Place where
  | start
  | levelOrTarget (first : Nat)
  | span (first : Nat)
  | field (first : Nat)
  | fields
  | target
  | level (first : Nat)

/-- The characters of a text that begin from one position on and before another. The text starts
    at position `i`. -/
def between (first stop : Nat) : (i : Nat) → List Char → List Char
  | _, [] => []
  | i, c :: rest =>
    let after := between first stop (i + c.utf8Size) rest
    if first ≤ i && i < stop then c :: after else after

/-- The part of a text from one position to another. -/
def slice (s : String) (first stop : Nat) : String :=
  String.ofList (between first stop 0 s.toList)

/-- Whether a directive may start with a character. -/
def startsTarget (c : Char) : Bool :=
  c == '-' || c == ':' || c == '_' || Text.isAlphanumeric c

/-- Read one character of a directive at a position. The slices are those of `s`. -/
def step (s : String) (d : LogDirective) (place : Place) (i : Nat) (c : Char) :
    Option (LogDirective × Place) :=
  match place with
  | .start =>
    if c = '[' then some (d, .span (i + 1))
    else if startsTarget c then some (d, .levelOrTarget i)
    else none
  | .levelOrTarget first =>
    if c = '=' then some ({ d with target := some (slice s first i) }, .level (i + 1))
    else if c = '[' then some ({ d with target := some (slice s first i) }, .span (i + 1))
    else some (d, place)
  | .span first =>
    if c = ']' then some ({ d with inSpan := some (slice s first i) }, .target)
    else if c = '\x7b' then
      let name := slice s first i
      some ({ d with inSpan := if name.isEmpty then none else some name }, .field (i + 1))
    else some (d, place)
  | .field first =>
    if c = '\x7d' then
      (FieldMatch.read? (slice s first i)).map fun f => ({ d with field := some f }, .fields)
    else some (d, place)
  | .fields => if c = ']' then some (d, .target) else none
  | .target => if c = '=' then some (d, .level (i + 1)) else none
  | .level _ => some (d, place)

/-- Read the characters of a directive one after the other. -/
def steps (s : String) : LogDirective → Place → Nat → List Char → Option (LogDirective × Place)
  | d, place, _, [] => some (d, place)
  | d, place, i, c :: rest =>
    (step s d place i c).bind fun (d, place) => steps s d place (i + c.utf8Size) rest

/-- The directive that a text denotes. Positions are counted in the text without the blanks
    around it, and the parts between them are taken from the text as it is. -/
def read? (s : String) : Option LogDirective :=
  match steps s ⟨.trace, none, none, none⟩ .start 0 (Text.trimChars s.toList) with
  | some (d, .levelOrTarget first) =>
    let word := slice s first s.utf8ByteSize
    match LogLevel.read? word with
    | some level => some { d with level }
    -- A word that is no level is a target for which everything is let through.
    | none => some { d with target := some word }
  | some (d, .level first) =>
    let word := slice s first s.utf8ByteSize
    if word.isEmpty then some d else (LogLevel.read? word).map fun level => { d with level }
  | some (d, .target) => some d
  | _ => none

/-- The text of a directive. -/
def text (d : LogDirective) : String :=
  let fieldText := match d.field with
    | some f => "\x7b" ++ f.text ++ "\x7d"
    | none => ""
  let spans := d.inSpan.getD "" ++ fieldText
  let brackets := if d.inSpan.isNone && d.field.isNone then "" else "[" ++ spans ++ "]"
  let subject := d.target.getD "" ++ brackets
  if d.target.isNone && brackets.isEmpty then d.level.name else subject ++ "=" ++ d.level.name

/-- The order of a text that may be missing: what is missing comes first. -/
def compareText : Option String → Option String → Ordering
  | none, none => .eq
  | none, some _ => .lt
  | some _, none => .gt
  | some a, some b => compare a b

/-- The order of what is asked of fields, where nothing comes first. -/
def compareField : Option FieldMatch → Option FieldMatch → Ordering
  | none, none => .eq
  | none, some _ => .lt
  | some _, none => .gt
  | some a, some b => a.order b

/-- How specific a directive is, before its parts are compared. -/
def weight (d : LogDirective) : Nat × Nat × Nat :=
  ((d.target.map fun t => t.utf8ByteSize + 1).getD 0, d.inSpan.toList.length,
    d.field.toList.length)

/-- The order of directives: the more specific one comes first. -/
def order (a b : LogDirective) : Ordering :=
  let (t, s, f) := a.weight
  let (t', s', f') := b.weight
  ((compare t t').then <| (compare s s').then <| (compare f f').then <|
    (compareText a.target b.target).then <| (compareText a.inSpan b.inSpan).then <|
    compareField a.field b.field).swap

theorem compareField_self (a : Option FieldMatch) : compareField a a = .eq := by
  cases a with
  | none => rfl
  | some f => exact f.order_self

theorem compareText_self (a : Option String) : compareText a a = .eq := by
  cases a with
  | none => rfl
  | some s => simp [compareText]

/-- What a directive says about the level has no part in the order. -/
theorem order_level (d : LogDirective) (level : LogLevel) :
    order { d with level } d = .eq := by
  simp [order, weight, compareField_self, compareText_self]

/-- Directives in order with one more; it replaces a directive for the same things. -/
def insert (d : LogDirective) : List LogDirective → List LogDirective
  | [] => [d]
  | e :: rest =>
    match order d e with
    | .lt => d :: e :: rest
    | .eq => d :: rest
    | .gt => e :: insert d rest

/-- Whether a directive is decided when an event is seen, because it asks for a span. -/
def isDynamic (d : LogDirective) : Bool :=
  d.inSpan.isSome || d.field.isSome

/-- Whether a directive can also be decided beforehand: it asks for no name and no value. -/
def isStatic (d : LogDirective) : Bool :=
  d.inSpan.isNone && d.field.all fun f => f.value.isNone

end LogDirective

end Switchboard
