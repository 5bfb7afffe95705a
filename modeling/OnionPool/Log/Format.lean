import OnionPool.Log.Level

/-!
# Line formats of the supervised programs

Each program puts its own heading in front of a message. A format recognises the heading, takes the
level from it and leaves the message; a line without the heading passes through whole, at `info`.

- tor: `Oct 19 14:31:02.000 [notice] message`
- privoxy: `2024-01-15 10:22:33.123 7f5e0c1f2700 Info: message`
- haproxy: `[WARNING]  (1234) : message`
-/

namespace OnionPool.Log

/-- Whose lines they are; `plain` lines have no heading. -/
inductive Format where
  | plain
  | tor
  | privoxy
  | haproxy
  deriving DecidableEq

/-- A line as it is re-emitted. -/
structure Entry where
  level : Level
  message : List Char
  deriving DecidableEq

/-- A line without a heading. -/
def Entry.unmarked (line : List Char) : Entry := ⟨.info, line⟩

/-- The text inside the first brackets and the text behind them. -/
def bracketed? (line : List Char) : Option (List Char × List Char) := do
  let (_, rest) ← Text.cutAt? ['['] line
  Text.cutAt? [']'] rest

/-- The mark between a heading and a message. -/
def mark : List Char := [':', ' ']

namespace Format

/-- Tor: a level in brackets anywhere, the message after it. -/
def readTor (line : List Char) : Entry :=
  match bracketed? line with
  | some (level, rest) => ⟨.ofName level, Text.trimStart rest⟩
  | none => .unmarked line

/-- Privoxy: date, time, thread and level before the first mark; the fourth word is the level. -/
def readPrivoxy (line : List Char) : Entry :=
  match Text.cutAt? mark line with
  | none => .unmarked line
  | some (heading, message) =>
    match (Text.words heading)[3]? with
    | some level => ⟨.ofName level, message⟩
    | none => .unmarked line

/-- HAProxy: the line begins with a level in brackets; the message follows the next mark, or the
brackets if there is none. -/
def readHaproxy (line : List Char) : Entry :=
  match Text.trimStart line with
  | '[' :: rest =>
    match bracketed? ('[' :: rest) with
    | none => .unmarked line
    | some (level, rest) =>
      match Text.cutAt? mark rest with
      | some (_, message) => ⟨.ofName level, message⟩
      | none => ⟨.ofName level, Text.trimStart rest⟩
  | _ => .unmarked line

def read : Format → List Char → Entry
  | plain => .unmarked
  | tor => readTor
  | privoxy => readPrivoxy
  | haproxy => readHaproxy

end Format

end OnionPool.Log
