import OnionPool.Failure
import OnionPool.Text.Split

/-!
# Addresses to listen on

A socket address is four decimal bytes separated by dots, or an address of eight hexadecimal groups
in brackets, in which two colons stand for a run of zero groups and the last two groups may be
written as four bytes; a colon and a port follow. An address has to belong to this machine.
-/

namespace OnionPool.Api

inductive HostAddress where
  | v4 (bytes : List Nat)
  | v6 (groups : List Nat)
  deriving DecidableEq

structure SocketAddress where
  host : HostAddress
  port : Port
  deriving DecidableEq

namespace SocketAddress

/-- The value of a digit in a base of at most sixteen. -/
def digit? (base : Nat) (c : Char) : Option Nat :=
  let v :=
    if '0' ≤ c ∧ c ≤ '9' then c.toNat - '0'.toNat
    else if 'a' ≤ c ∧ c ≤ 'f' then c.toNat - 'a'.toNat + 10
    else if 'A' ≤ c ∧ c ≤ 'F' then c.toNat - 'A'.toNat + 10
    else base
  if v < base then some v else none

/-- The leading digits of a text, and the rest. -/
def digits (base : Nat) : List Char → List Nat × List Char
  | [] => ([], [])
  | c :: rest =>
    match digit? base c with
    | none => ([], c :: rest)
    | some d => let (ds, rest) := digits base rest; (d :: ds, rest)

/-- A number below `bound` of at most `most` digits at the front of a text. Zeros in front of it
are refused unless `zeros`. -/
def number? (base : Nat) (most : Option Nat) (zeros : Bool) (bound : Nat) (s : List Char) :
    Option (Nat × List Char) :=
  let (ds, rest) := digits base s
  let n := ds.foldl (fun n d => base * n + d) 0
  let fits := most.all (ds.length ≤ ·)
  let plain := zeros || ds.head? != some 0 || ds.length ≤ 1
  if ds ≠ [] ∧ fits ∧ plain ∧ n < bound then some (n, rest) else none

/-- A given character at the front of a text. -/
def mark? (c : Char) (s : List Char) : Option (List Char) := Text.after? [c] s

/-- Some reading after a separator, which the first of a row has not in front of it. -/
def separated? {α : Type} (c : Char) (i : Nat) (read : List Char → Option (α × List Char))
    (s : List Char) : Option (α × List Char) :=
  if i = 0 then read s else (mark? c s).bind read

/-- One of four bytes. -/
def byte? (s : List Char) : Option (Nat × List Char) := number? 10 (some 3) false 256 s

/-- Four bytes with dots between them. -/
def bytes? (s : List Char) : Option (List Nat × List Char) := do
  let (a, s) ← byte? s
  let (b, s) ← separated? '.' 1 byte? s
  let (c, s) ← separated? '.' 1 byte? s
  let (d, s) ← separated? '.' 1 byte? s
  some ([a, b, c, d], s)

/-- One group of at most four hexadecimal digits. -/
def group? (s : List Char) : Option (Nat × List Char) := number? 16 (some 4) true 65536 s

/-- At most `limit` groups from the `i`-th on; whether they end in four bytes; and the rest. -/
def groups : (limit i : Nat) → List Char → List Nat × Bool × List Char
  | 0, _, s => ([], false, s)
  | limit + 1, i, s =>
    match if limit = 0 then none else separated? ':' i bytes? s with
    | some (bs, rest) =>
      let byte (k : Nat) : Nat := bs.getD k 0
      ([256 * byte 0 + byte 1, 256 * byte 2 + byte 3], true, rest)
    | none =>
      match separated? ':' i group? s with
      | none => ([], false, s)
      | some (g, rest) =>
        let (gs, bytes, rest) := groups limit (i + 1) rest
        (g :: gs, bytes, rest)

/-- Eight groups, with at most one run of zeros left out. -/
def allGroups? (s : List Char) : Option (List Nat × List Char) := do
  let (head, bytes, rest) := groups 8 0 s
  if head.length = 8 then some (head, rest)
  else if bytes then none
  else
    let rest ← Text.after? [':', ':'] rest
    let (tail, _, rest) := groups (7 - head.length) 0 rest
    some (head ++ List.replicate (8 - head.length - tail.length) 0 ++ tail, rest)

/-- The colon and the port. -/
def port? (s : List Char) : Option (Port × List Char) := do
  let s ← mark? ':' s
  let (n, s) ← number? 10 none true portBound s
  some (UInt16.ofNat n, s)

/-- The number of a zone, which only its owner understands. -/
def dropZone? (s : List Char) : Option (List Char) :=
  match mark? '%' s with
  | none => some s
  | some s => (number? 10 none true (Nat.pow 2 32) s).map (·.2)

/-- An address of four bytes with a port. -/
def readV4? (s : List Char) : Option (SocketAddress × List Char) := do
  let (bs, s) ← bytes? s
  let (p, s) ← port? s
  some (⟨.v4 bs, p⟩, s)

/-- An address of eight groups in brackets with a port. -/
def readV6? (s : List Char) : Option (SocketAddress × List Char) := do
  let s ← mark? '[' s
  let (gs, s) ← allGroups? s
  let s ← dropZone? s
  let s ← mark? ']' s
  let (p, s) ← port? s
  some (⟨.v6 gs, p⟩, s)

/-- What is read if nothing is left after it. -/
def whole? {α : Type} : Option (α × List Char) → Option α
  | some (a, []) => some a
  | _ => none

/-- The address that a text denotes. -/
def read? (s : String) : Option SocketAddress :=
  let s := s.toList
  (whole? (readV4? s)).or (whole? (readV6? s))

/-- Whether one can listen on an address: it is unspecified, or one by which the machine reaches
itself, or one of a group. -/
def isLocal (a : SocketAddress) : Bool :=
  match a.host with
  | .v4 bs =>
    let first := bs.headD 0
    bs.all (· = 0) || first = 127 || 224 ≤ first && first < 240 || bs.all (· = 255)
  | .v6 gs => gs.all (· = 0) || gs = [0, 0, 0, 0, 0, 0, 0, 1]

end SocketAddress

/-- The address to listen on. -/
def listen (host : String) (port : Port) : Except Failure SocketAddress :=
  match SocketAddress.read? (host ++ ":" ++ port.text) with
  | none => .error (.invalidConfig "API address: invalid socket address syntax")
  | some a => if a.isLocal then .ok a else .error (.io (.os .addressNotAvailable))

end OnionPool.Api
