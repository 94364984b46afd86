import Switchboard.LogFilter.Directive

/-!
# Log Filters

What is written to the log. A filter is a list of directives with commas
between them. A directive that cannot be read is left out, and a filter without
directives lets errors through.

The directives are kept in order, the most specific one first. A directive for
the same things replaces the one before.

## Main definitions

* `LogFilter`: A filter.
* `LogFilter.ofText`, `LogFilter.text`: Filters as text.
-/

namespace Switchboard

/-- A filter: the directives that are decided beforehand, and those that are decided when an
    event is seen. -/
structure LogFilter where
  statics : List LogDirective
  dynamics : List LogDirective
  deriving DecidableEq

namespace LogFilter

/-- The parts of a text between commas. -/
def parts (s : String) : List String :=
  (s.splitOn ",").filter fun part => !part.isEmpty

/-- The filter with some directives. -/
def ofDirectives (ds : List LogDirective) : LogFilter :=
  let dynamics := ds.filter LogDirective.isDynamic
  let statics := ds.filter (fun d => !d.isDynamic) ++ dynamics.filter LogDirective.isStatic
  let sorted := fun ds : List LogDirective => ds.foldl (fun kept d => d.insert kept) []
  let filter : LogFilter := ⟨sorted statics, sorted dynamics⟩
  if filter.statics.isEmpty && filter.dynamics.isEmpty then ⟨[⟨.error, none, none, none⟩], []⟩
  else filter

/-- The filter that a text denotes. -/
def ofText (s : String) : LogFilter :=
  ofDirectives ((parts s).filterMap LogDirective.read?)

/-- The text of a filter. -/
def text (f : LogFilter) : String :=
  ",".intercalate ((f.statics ++ f.dynamics).map LogDirective.text)

end LogFilter

end Switchboard
