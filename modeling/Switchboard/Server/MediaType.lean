import Switchboard.Text.Digit

/-!
# Media Types

Whether the content type of a request says that its body is JSON: the type is
`application` and the subtype is `json` or ends in `+json`, in any case. What
follows after a semicolon has to be a list of parameters, whose values are
tokens or quoted strings; blanks may stand before a name and after a quoted
string.

## Main definitions

* `MediaType.isToken`: The characters of names and of values that are not quoted.
* `MediaType.parameters`: Whether a text is a list of parameters.
* `MediaType.isJson`: Whether a content type is one of JSON.
-/

namespace Switchboard

namespace MediaType

/-- Whether a character may stand in a name or in a value that is not quoted. -/
def isToken (c : Char) : Bool :=
  c.isAlphanum ||
    ['!', '#', '$', '%', '&', '\x27', '*', '+', '-', '.', '^', '_', '\x60', '|', '~'].contains c

/-- Whether a character may stand between quotation marks: one of ASCII that is no control
    character. -/
def isQuotable (c : Char) : Bool :=
  0x20 ≤ c.toNat && c.toNat < 0x7F

/-- Where the reading of parameters is. -/
inductive Place where
  /-- Before a name. -/
  | start
  | name
  /-- Before the value. -/
  | equals
  | value
  /-- Between quotation marks; nothing may be quoted only if something was. -/
  | quoted (started : Bool)
  | afterQuoted

/-- The place after one more character, if it may stand there. -/
def Place.next (place : Place) (c : Char) : Option Place :=
  match place with
  | .start => if c = ' ' then some .start else if isToken c then some .name else none
  | .name => if c = '=' then some .equals else if isToken c then some .name else none
  | .equals => if c = '"' then some (.quoted false) else if isToken c then some .value else none
  | .value => if c = ';' then some .start else if isToken c then some .value else none
  | .quoted started =>
    if c = '"' && started then some .afterQuoted
    else if isQuotable c then some (.quoted true)
    else none
  | .afterQuoted => if c = ';' then some .start else if c = ' ' then some .afterQuoted else none

/-- Whether a list of parameters may end at a place. -/
def Place.isEnd : Place → Bool
  | .name | .quoted _ => false
  | _ => true

/-- Whether a text, read from a place on, is a list of parameters. -/
def parameters : Place → List Char → Bool
  | place, [] => place.isEnd
  | place, c :: rest =>
    match place.next c with
    | some place => parameters place rest
    | none => false

/-- The subtype and the suffix of a name: the suffix follows the last plus sign that is not the
    first character. -/
def splitSuffix (subtype : List Char) : List Char × Option (List Char) :=
  let tail := subtype.reverse.takeWhile (· != '+')
  -- The plus sign has to stand after at least one character.
  if tail.length + 1 < subtype.length then
    (subtype.take (subtype.length - tail.length - 1), some tail.reverse)
  else (subtype, none)

/-- Whether a content type is one of JSON. -/
def isJson (contentType : String) : Bool :=
  let cs := contentType.toList.map Char.toLower
  let type := cs.takeWhile isToken
  match cs.drop type.length with
  | '/' :: rest =>
    let subtype := rest.takeWhile isToken
    let tail := rest.drop subtype.length
    let (base, suffix) := splitSuffix subtype
    let json := ['j', 's', 'o', 'n']
    type == "application".toList && !subtype.isEmpty && (base == json || suffix == some json) &&
      match tail with
      | [] => true
      | ';' :: tail => parameters .start tail
      | _ => false
  | _ => false

end MediaType

end Switchboard
