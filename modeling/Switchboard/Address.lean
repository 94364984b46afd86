import Switchboard.Text.Numeral

/-!
# Socket Addresses

An internet address of version 4 or 6 with a port, as a text. An address of
version 6 stands in brackets and may carry the number of a scope.

The groups of an address of version 6 are written in hexadecimal without zeros
in front, and the longest run of two or more zero groups, the first one of
equal ones, is written as two colons. The addresses that embed one of version 4
end in it.

## Main definitions

* `Address`: An address and a port.
* `Address.read?`: The address a text denotes.
* `Address.text`: The text of an address.

## Theorems

* `Address.digits?_length`: A number takes at least one character.
-/

namespace Switchboard

/-- An internet address. -/
inductive Address.Host where
  | v4 (a b c d : UInt8)
  /-- Eight groups, as many as an address has, and a scope. -/
  | v6 (groups : List Nat) (scope : Nat)
  deriving DecidableEq

/-- An internet address with a port. -/
structure Address where
  host : Address.Host
  port : Nat
  deriving DecidableEq

namespace Address

/-- The number of values of a port, and of a group. -/
def portBound : Nat := Nat.pow 2 16

/-- The value of a digit in base ten or sixteen. -/
def digitValue? (base : Nat) (c : Char) : Option Nat :=
  (Text.hexDigit? c).filter (· < base)

/-- Whether there are more digits than allowed. -/
def tooMany (most : Option Nat) (n : Nat) : Bool :=
  match most with
  | some m => m < n
  | none => false

/-- A number below a bound: as many digits as there are, at most `most` of them, and no
    superfluous zeros in front unless they are allowed. -/
def digits? (base bound : Nat) (most : Option Nat) (zeros : Bool) (cs : List Char) :
    Option (Nat × List Char) :=
  let ds := cs.takeWhile fun c => (digitValue? base c).isSome
  let n := ds.foldl (fun n d => n * base + (digitValue? base d).getD 0) 0
  if ds.isEmpty || tooMany most ds.length || (!zeros && ds.head? == some '0' && 1 < ds.length) ||
      bound ≤ n then
    none
  else some (n, cs.drop ds.length)

theorem digits?_length {base bound n : Nat} {most : Option Nat} {zeros : Bool}
    {cs rest : List Char} (h : digits? base bound most zeros cs = some (n, rest)) :
    rest.length < cs.length := by
  unfold digits? at h
  dsimp only at h
  split at h
  · exact absurd h (by simp)
  · next hc =>
      simp only [Option.some.injEq, Prod.mk.injEq] at h
      obtain ⟨-, rfl⟩ := h
      simp only [Bool.or_eq_true, not_or, List.isEmpty_iff] at hc
      have hne := hc.1.1.1
      have hle : (cs.takeWhile fun c => (digitValue? base c).isSome).length ≤ cs.length :=
        (List.takeWhile_sublist _).length_le
      have hpos := List.length_pos_iff.mpr hne
      rw [List.length_drop]
      omega

/-- The four parts of an address of version 4. -/
def quad? (cs : List Char) : Option ((UInt8 × UInt8 × UInt8 × UInt8) × List Char) := do
  let part := digits? 10 256 (some 3) false
  let (a, cs) ← part cs
  let (b, cs) ← part (← after? '.' cs)
  let (c, cs) ← part (← after? '.' cs)
  let (d, cs) ← part (← after? '.' cs)
  some ((UInt8.ofNat a, UInt8.ofNat b, UInt8.ofNat c, UInt8.ofNat d), cs)
where
  /-- The text after a character it starts with. -/
  after? (c : Char) : List Char → Option (List Char)
    | d :: rest => if d = c then some rest else none
    | [] => none

/-- The text after the colon between two groups; the first group has none before it. -/
def afterColon? (first : Bool) (cs : List Char) : Option (List Char) :=
  if first then some cs else quad?.after? ':' cs

/-- Up to `limit` groups; an address of version 4 may stand for the last two. It is said
    whether one does. -/
def groups : (limit : Nat) → (first : Bool) → List Char → List Nat × Bool × List Char
  | 0, _, cs => ([], false, cs)
  | limit + 1, first, cs =>
    -- An address of version 4 takes the place of two groups.
    let embedded := if limit = 0 then none else (afterColon? first cs).bind quad?
    match embedded with
    | some ((a, b, c, d), rest) =>
      ([a.toNat * 256 + b.toNat, c.toNat * 256 + d.toNat], true, rest)
    | none =>
      match (afterColon? first cs).bind (digits? 16 portBound (some 4) true) with
      | some (g, rest) =>
        let (gs, quad, rest) := groups limit false rest
        (g :: gs, quad, rest)
      | none => ([], false, cs)

/-- The groups of an address of version 6, with the left out ones put in. -/
def v6Groups? (cs : List Char) : Option (List Nat × List Char) :=
  let (front, quad, rest) := groups 8 true cs
  if front.length = 8 then some (front, rest)
  else if quad then none
  else
    match rest with
    | ':' :: ':' :: rest =>
      -- The two colons stand for one group at least.
      let (back, _, rest) := groups (7 - front.length) true rest
      some (front ++ List.replicate (8 - front.length - back.length) 0 ++ back, rest)
    | _ => none

/-- The scope of an address of version 6, zero if none is given. -/
def scope? : List Char → Option (Nat × List Char)
  | '%' :: rest => digits? 10 (Nat.pow 2 32) none true rest
  | cs => some (0, cs)

/-- The colon and the port that end a text. -/
def port? : List Char → Option Nat
  | ':' :: rest =>
    match digits? 10 portBound none true rest with
    | some (n, []) => some n
    | _ => none
  | _ => none

/-- The address that a text denotes. -/
def read? (s : String) : Option Address :=
  match s.toList with
  | '[' :: rest => do
    let (gs, rest) ← v6Groups? rest
    let (scope, rest) ← scope? rest
    match rest with
    | ']' :: rest => (port? rest).map fun port => ⟨.v6 gs scope, port⟩
    | _ => none
  | cs => do
    let ((a, b, c, d), rest) ← quad? cs
    (port? rest).map fun port => ⟨.v4 a b c d, port⟩

/-- The length of the run of zeros at the start of groups. -/
def zeroRun (gs : List Nat) : Nat :=
  (gs.takeWhile (· == 0)).length

/-- The start and the length of the longest run of zeros, the first one of equal ones. -/
def longestZeroRun (gs : List Nat) : Nat × Nat :=
  (List.range gs.length).foldl
    (fun best i =>
      let n := zeroRun (gs.drop i)
      if best.2 < n then (i, n) else best)
    (0, 0)

/-- The text of a group. -/
def groupText (g : Nat) : String :=
  String.ofList (Nat.toDigits 16 g)

/-- The text of an address of version 4. -/
def quadText (a b c d : UInt8) : String :=
  ".".intercalate ([a, b, c, d].map fun part => toString part.toNat)

/-- The text of the groups of an address of version 6. -/
def groupsText (gs : List Nat) : String :=
  match gs with
  | [0, 0, 0, 0, 0, 0xFFFF, x, y] =>
    "::ffff:" ++ quadText (UInt8.ofNat (x / 256)) (UInt8.ofNat x) (UInt8.ofNat (y / 256))
      (UInt8.ofNat y)
  | gs =>
    let (start, length) := longestZeroRun gs
    if 1 < length then
      ":".intercalate ((gs.take start).map groupText) ++ "::" ++
        ":".intercalate ((gs.drop (start + length)).map groupText)
    else ":".intercalate (gs.map groupText)

/-- The text of an address. -/
def text (a : Address) : String :=
  match a.host with
  | .v4 x y z w => quadText x y z w ++ ":" ++ toString a.port
  | .v6 gs scope =>
    let zone := if scope = 0 then "" else "%" ++ toString scope
    "[" ++ groupsText gs ++ zone ++ "]:" ++ toString a.port

end Address

end Switchboard
